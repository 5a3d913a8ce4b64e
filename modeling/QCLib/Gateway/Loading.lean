import QCLib.Gateway.StatementText

/-!
# Loading the store

What `MysqlToRedis` leaves in the store. A row becomes one *record*, a hash with a field for each
column, under a key that ends in the text of its key columns; and its bind items become sets, under
keys with one separator more. A table that has a column without a field is not loaded at all.

`mysqlToRedis_eq` says it as a fold over the tables and their rows. From there on one looks at
single keys: a key that no bind item is written under is changed only by the rows with that key
(`contents_writeRow`), and the last of them decides (`contents_foldl_writeRow`).

Loading never reads the store, so what a key holds afterwards depends on the writes to that key
alone, and those are the rows whose key it is, in their order. Two kinds of writes could meet:
`HMSET` under the key of a record, and `SADD` under the key of a set. They do not as long as the
keys differ, and this is an assumption of the lemmas on single keys, discharged in
`Gateway.StoredRecords` from the shape of the keys.
-/

namespace QCLib

open CStrings Sql

/-! ### Records -/

/-- The text that is stored for a cell. -/
def storedText (c : Column) (x : Cell) : String := redisValue (.ofColumn c) (x.getD "")

/-- The column is flagged as the primary key, and as nothing else. -/
def IsKeyColumn (c : Column) : Prop := fieldFlagMap c.flags = fieldFlagPrimary

instance (c : Column) : Decidable (IsKeyColumn c) := inferInstanceAs (Decidable (_ = _))

/-- The texts of the key columns, one after another. -/
def keyTextOf : List (Column × Cell) → String
  | [] => ""
  | p :: rest => if IsKeyColumn p.1 then storedText p.1 p.2 ++ keyTextOf rest else keyTextOf rest

/-- The part of the key of a record that comes from its row. -/
def keyText (columns : List Column) (row : Row) : String := keyTextOf (columns.zip row)

/-- The columns all have a field. -/
def Mapped (obj : TableObjectMap) (columns : List Column) : Prop :=
  ∀ c ∈ columns, obj.getObjFieldName c.name ≠ ""

instance (obj : TableObjectMap) (columns : List Column) : Decidable (Mapped obj columns) :=
  inferInstanceAs (Decidable (∀ c ∈ columns, _))

namespace TableObjectMap

/-- The record of a row. -/
def record (obj : TableObjectMap) (columns : List Column) (row : Row) : List KeyValue :=
  (columns.zip row).map fun p ↦ ⟨obj.getObjFieldName p.1.name, storedText p.1 p.2⟩

/-- The key of a record. -/
def recordKey (obj : TableObjectMap) (columns : List Column) (row : Row) : String :=
  cStr (obj.objectName ++ obj.keySeparator ++ keyText columns row)

/-- The key of a set. -/
def bindKey (obj : TableObjectMap) (item value : String) : String :=
  cStr (obj.objectName ++ obj.keySeparator ++ item ++ obj.keySeparator ++ value)

/-- The turn of the loop of `MysqlRowDataToNosql` for a cell. -/
def cellTurn (obj : TableObjectMap) (data : RowData) (p : Column × Cell) : RowData :=
  rowTurn obj data (.ofColumn p.1, obj.getObjFieldName p.1.name, p.2.getD "")

/-- What the loop collects from a row. -/
def rowData (obj : TableObjectMap) (columns : List Column) (row : Row) : RowData :=
  (columns.zip row).foldl obj.cellTurn { setTableKey := obj.objectName ++ obj.keySeparator }

end TableObjectMap

variable {σ : Type} {obj : TableObjectMap} {columns : List Column} {row : Row} {rows : List Row}

/-- The loop over the cells, from any point on: by induction over the cells, with what has been
collected so far. -/
private theorem foldl_cellTurn (obj : TableObjectMap) (ps : List (Column × Cell)) (data : RowData) :
    (ps.foldl obj.cellTurn data).setValue =
        data.setValue ++ ps.map (fun p ↦ ⟨obj.getObjFieldName p.1.name, storedText p.1 p.2⟩) ∧
      (ps.foldl obj.cellTurn data).setTableKey = data.setTableKey ++ keyTextOf ps := by
  induction ps generalizing data with
  | nil => simp [keyTextOf]
  | cons p ps ih =>
    rw [List.foldl_cons, List.map_cons, keyTextOf]
    obtain ⟨hvalue, hkey⟩ := ih (obj.cellTurn data p)
    rw [hvalue, hkey, List.append_cons]
    refine ⟨rfl, ?_⟩
    show (if IsKeyColumn p.1 then data.setTableKey ++ storedText p.1 p.2
      else data.setTableKey) ++ keyTextOf ps = _
    split_ifs with hprimary
    · rw [String.append_assoc]
    · rfl

/-- The record of a row is its fields with the mapped names. -/
theorem rowData_setValue : (obj.rowData columns row).setValue = obj.record columns row :=
  (foldl_cellTurn obj _ _).1

/-- The key of a row is made of the object name, the separator and the key text. -/
theorem rowData_setTableKey : (obj.rowData columns row).setTableKey =
    obj.objectName ++ obj.keySeparator ++ keyText columns row :=
  (foldl_cellTurn obj _ _).2

/-- An item that is bound is one of the object's, and a column of the table has its name. -/
theorem mem_bindItems {item : String × String}
    (h : item ∈ (obj.rowData columns row).bindItems.bindItems.toList) :
    item.1 ∈ obj.bindItems ∧ ∃ c ∈ columns, c.name = item.1 := by
  rw [TableObjectMap.rowData] at h
  have hzip : ∀ p ∈ columns.zip row, p.1 ∈ columns := fun p hp ↦ (List.of_mem_zip hp).1
  generalize columns.zip row = ps at h hzip
  induction ps using List.reverseRecOn with
  | nil =>
    have hempty := Std.ExtTreeMap.mem_toList_iff_getElem?_eq_some.1 h
    exact absurd hempty (by simp)
  | append_singleton ps p ih =>
    obtain ⟨hps, hp⟩ := List.forall_mem_append.1 hzip
    have hlast : item ∈ (if p.1.name ∈ obj.bindItems then
        (ps.foldl obj.cellTurn { setTableKey := obj.objectName ++ obj.keySeparator }
          ).bindItems.bindItems.insert p.1.name (storedText p.1 p.2)
        else (ps.foldl obj.cellTurn { setTableKey := obj.objectName ++ obj.keySeparator }
          ).bindItems.bindItems).toList := by
      rwa [List.foldl_append, List.foldl_cons, List.foldl_nil] at h
    split_ifs at hlast with hmem
    · obtain ⟨name, value⟩ := item
      rw [Std.ExtTreeMap.mem_toList_iff_getElem?_eq_some, Std.ExtTreeMap.getElem?_insert] at hlast
      rcases eq_or_ne p.1.name name with rfl | hne
      · exact ⟨hmem, p.1, hp p List.mem_cons_self, rfl⟩
      · rw [if_neg (mt Std.compare_eq_iff_eq.1 hne)] at hlast
        exact ih (Std.ExtTreeMap.mem_toList_iff_getElem?_eq_some.2 hlast) hps
    · exact ih hlast hps

/-! ### Rows -/

variable (nosql : NoSqlStore σ)

/-- The store after a row. -/
def writeRow (obj : TableObjectMap) (columns : List Column) (db : σ) (row : Row) : σ :=
  nosql.setDataCache
    (setBindItemsToNosql nosql db (obj.rowData columns row).bindItems obj.objectName
      obj.keySeparator)
    (obj.recordKey columns row) (obj.record columns row)

/-- The loop runs over three lists at once, the fields, their mapped names and the cells. They are
one list of columns with their cells. -/
private theorem zip_zip (obj : TableObjectMap) (columns : List Column) (row : Row) :
    (columns.map FieldInfo.ofColumn).zip
        (((columns.map FieldInfo.ofColumn).map fun info ↦ obj.getObjFieldName info.fieldName).zip
          (row.map fun cell ↦ cell.getD "")) =
      (columns.zip row).map fun p ↦
        (.ofColumn p.1, obj.getObjFieldName p.1.name, p.2.getD "") := by
  induction columns generalizing row with
  | nil => rfl
  | cons c columns ih =>
    cases row with
    | nil => rfl
    | cons x row =>
      simp only [List.map_cons, List.zip_cons_cons, ih]
      rfl

/-- **What a row becomes**: a hash of its fields under its key, and a member in the set of each of
its items. -/
theorem mysqlRowDataToNosql_eq {g : DBGateway σ} {tblname : String}
    (hobj : g.config.getTableObjectMapByTblname tblname = some obj)
    (hrow : row.length = columns.length) :
    g.mysqlRowDataToNosql nosql tblname (row.map fun cell ↦ cell.getD "")
        ((columns.map FieldInfo.ofColumn).map fun info ↦ obj.getObjFieldName info.fieldName)
        (columns.map FieldInfo.ofColumn) =
      some { g with nosql := writeRow nosql obj columns g.nosql row } := by
  have hlength : ¬ (row.map fun cell ↦ cell.getD "").length ≠
      ((columns.map FieldInfo.ofColumn).map fun info ↦
        obj.getObjFieldName info.fieldName).length := by
    simp [hrow]
  rw [DBGateway.mysqlRowDataToNosql, if_neg hlength, hobj, Option.map_some, zip_zip,
    List.foldl_map]
  have hdata : (columns.zip row).foldl (fun data p ↦
      rowTurn obj data (.ofColumn p.1, obj.getObjFieldName p.1.name, p.2.getD ""))
        { setTableKey := obj.objectName ++ obj.keySeparator } = obj.rowData columns row := rfl
  simp only [hdata, rowData_setValue, rowData_setTableKey]
  rfl

/-! ### Tables -/

/-- The store after a table, if there is one. -/
def loadTable (obj : TableObjectMap) (t : Option Table) (db : σ) : σ :=
  match t with
  | none => db
  | some t =>
    if Mapped obj t.columns then t.rows.foldl (writeRow nosql obj t.columns) db else db

/-- The store after all tables. -/
def loadTables (configs : List TableObjectMap) (tables : Database) (db : σ) : σ :=
  configs.foldl (fun db obj ↦ loadTable nosql obj (tables obj.tableName) db) db

variable {mysql : MySql} {reserved : String → Bool} {g : DBGateway σ}

/-- The rows are loaded one after another, each into the store that the ones before it have left. -/
private theorem foldlM_rows {tblname : String}
    (hobj : g.config.getTableObjectMapByTblname tblname = some obj)
    (hrows : ∀ row ∈ rows, row.length = columns.length) :
    (rows.map fun row ↦ row.map fun cell ↦ cell.getD "").foldlM (fun (g : DBGateway σ) row ↦
        g.mysqlRowDataToNosql nosql tblname row
          ((columns.map FieldInfo.ofColumn).map fun info ↦ obj.getObjFieldName info.fieldName)
          (columns.map FieldInfo.ofColumn)) g =
      some { g with nosql := rows.foldl (writeRow nosql obj columns) g.nosql } := by
  induction rows generalizing g with
  | nil => rfl
  | cons row rows ih =>
    obtain ⟨hrow, hrows⟩ := List.forall_mem_cons.1 hrows
    rw [List.map_cons, List.foldlM_cons, mysqlRowDataToNosql_eq nosql hobj hrow]
    exact ih (g := { g with nosql := writeRow nosql obj columns g.nosql row }) hobj hrows

/-- **What a table becomes**: its rows, loaded in the order in which the server returns them. -/
theorem mysqlToNoSql_eq (hmysql : mysql.Executes reserved) (hname : IsName reserved obj.tableName)
    (hobj : g.config.getTableObjectMapByTblname obj.tableName = some obj) :
    g.mysqlToNoSql nosql mysql obj.tableName =
      some { g with nosql := loadTable nosql obj (g.db obj.tableName) g.nosql } := by
  have hnul : NoNul ("select * from " ++ obj.tableName ++ ";") :=
    noNul_append.2 ⟨noNul_append.2 ⟨by decide, noNul_of_isWord hname.1⟩, by decide⟩
  have hquery : mysql.query g.db (cStr ("select * from " ++ obj.tableName ++ ";")) =
      (g.db obj.tableName).map fun t ↦ (g.db, some ⟨t.columns, t.rows⟩) := by
    rw [cStr_eq_self.2 hnul]
    exact hmysql.executes _ _ _ (read_selectAll hname) trivial
  rw [DBGateway.mysqlToNoSql, getDataFromDb, hquery]
  rcases hdb : g.db obj.tableName with _ | t
  · rfl
  · have hlengths : ∀ row ∈ t.rows, row.length = t.columns.length := t.valid.1
    simp only [Option.map_some, Option.bind_eq_bind, Option.bind_some, Option.getD_some, loadTable]
    rcases hrows : t.rows with _ | ⟨row, rows⟩
    · -- Nothing is done for an empty table, whatever its columns are.
      simp [preprocess]
    · rw [hrows] at hlengths
      have hrow : ¬ (row.map fun cell ↦ cell.getD "").length ≠
          (t.columns.map FieldInfo.ofColumn).length := by
        simp [hlengths row List.mem_cons_self]
      have hmapped : "" ∈ ((t.columns.map FieldInfo.ofColumn).map fun info ↦
          obj.getObjFieldName info.fieldName) ↔ ¬ Mapped obj t.columns := by
        simp [Mapped, FieldInfo.ofColumn]
      rw [List.map_cons, preprocess, if_neg hrow, hobj]
      dsimp only
      by_cases hm : Mapped obj t.columns
      · rw [if_neg (not_not_intro hm ∘ hmapped.1), if_pos hm]
        exact foldlM_rows nosql hobj hlengths
      · rw [if_pos (hmapped.2 hm), if_neg hm]
        rfl

/-- **What the tables become**: they are loaded in the order of the configuration. Nothing else of
the gateway changes. -/
theorem mysqlToRedis_eq (hmysql : mysql.Executes reserved)
    (hnames : ∀ obj ∈ g.config.configs, IsName reserved obj.tableName)
    (hfound : ∀ obj ∈ g.config.configs,
      g.config.getTableObjectMapByTblname obj.tableName = some obj) :
    g.mysqlToRedis nosql mysql =
      some { g with nosql := loadTables nosql g.config.configs g.db g.nosql } := by
  rw [DBGateway.mysqlToRedis]
  generalize hconfigs : g.config.configs = configs at hnames hfound
  clear hconfigs
  induction configs generalizing g with
  | nil => rfl
  | cons obj configs ih =>
    obtain ⟨hname, hnames⟩ := List.forall_mem_cons.1 hnames
    obtain ⟨hobj, hfound⟩ := List.forall_mem_cons.1 hfound
    rw [List.foldlM_cons, mysqlToNoSql_eq nosql hmysql hname hobj]
    exact ih (g := { g with nosql := loadTable nosql obj (g.db obj.tableName) g.nosql })
      hnames hfound

/-! ### Entries -/

variable {contents : σ → String → RedisEntry} {db : σ} {K : String}

private theorem contents_setBindItems (hnosql : nosql.Faithful contents) {items : BindItemInfo}
    {objname sep : String} (hK : ∀ item ∈ items.bindItems.toList,
      cStr (objname ++ sep ++ item.1 ++ sep ++ item.2) ≠ K) :
    contents (setBindItemsToNosql nosql db items objname sep) K = contents db K := by
  rw [setBindItemsToNosql]
  generalize items.bindItems.toList = l at hK
  induction l generalizing db with
  | nil => rfl
  | cons item l ih =>
    obtain ⟨hitem, hK⟩ := List.forall_mem_cons.1 hK
    rw [List.foldl_cons, ih hK, hnosql.addSetCache, Function.update_of_ne hitem.symm]

/-- **A row, seen from a key** that none of its bind items is written under. -/
theorem contents_writeRow (hnosql : nosql.Faithful contents)
    (hK : ∀ item ∈ obj.bindItems, (∃ c ∈ columns, c.name = item) →
      ∀ value, obj.bindKey item value ≠ K) :
    contents (writeRow nosql obj columns db row) K =
      if obj.recordKey columns row = K then (contents db K).setFields (obj.record columns row)
      else contents db K := by
  have hbind : contents (setBindItemsToNosql nosql db (obj.rowData columns row).bindItems
      obj.objectName obj.keySeparator) K = contents db K := by
    refine contents_setBindItems nosql hnosql fun item hitem ↦ ?_
    obtain ⟨hmem, hcolumn⟩ := mem_bindItems hitem
    exact hK _ hmem hcolumn _
  rw [writeRow, hnosql.setDataCache, Function.update_apply]
  rcases eq_or_ne (obj.recordKey columns row) K with rfl | hne
  · rw [if_pos rfl, if_pos rfl, hbind]
  · rw [if_neg hne, if_neg hne.symm, hbind]

/-- The members of a set are changed by bind items only. -/
theorem members_loadTables (hnosql : nosql.Faithful contents) {configs : List TableObjectMap}
    (hK : ∀ obj ∈ configs, ∀ item ∈ obj.bindItems, ∀ value, obj.bindKey item value ≠ K)
    (tables : Database) :
    (contents (loadTables nosql configs tables db) K).members = (contents db K).members := by
  have hrow : ∀ obj ∈ configs, ∀ columns (row : Row) (db : σ),
      (contents (writeRow nosql obj columns db row) K).members = (contents db K).members := by
    intro obj hobj columns row db
    rw [contents_writeRow nosql hnosql fun item hitem _ ↦ hK obj hobj item hitem]
    split_ifs
    · exact RedisEntry.members_setFields _ _
    · rfl
  have hrows : ∀ obj ∈ configs, ∀ columns (rows : List Row) (db : σ),
      (contents (rows.foldl (writeRow nosql obj columns) db) K).members =
        (contents db K).members := by
    intro obj hobj columns rows
    induction rows with
    | nil => exact fun db ↦ rfl
    | cons row rows ih => exact fun db ↦ (ih _).trans (hrow obj hobj columns row db)
  rw [loadTables]
  clear hK hrow
  induction configs generalizing db with
  | nil => rfl
  | cons obj configs ih =>
    obtain ⟨hobj, hconfigs⟩ := List.forall_mem_cons.1 hrows
    rw [List.foldl_cons, ih hconfigs]
    unfold loadTable
    split
    · rfl
    · split_ifs
      · exact hobj _ _ _
      · rfl

end QCLib
