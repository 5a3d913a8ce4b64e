import QCLib.Gateway.Saving

/-!
# Loading and saving at once

`db_gateway_run` loads all tables and saves them five minutes later. If nothing happens in between,
every row that is written back gets what was stored for it, and nothing else changes
(`firstRound_eq`). So nothing is lost exactly if no such row has a `NULL` or a text that was
replaced by `default_bin_data` (`roundTrip_iff`).

Objects are saved one after another, each into its own table, and none of them reads what another
has written; `Ready` is what is left of the assumptions for an object while others are being saved.
The set of rows that are written back is described twice, from the code (`WrittenBack`) and from the
table (`IsReturned`), and `isReturned_iff` says that both are one.

`roundTrip_iff` asks of the server that it executes the statements that are generated
(`MySql.Executes`), and of a table that its primary key is the field that the configuration file
names, and that no text has a quote or a backslash in it (`TableFits`).
-/

namespace QCLib

open CStrings Sql DBGateway

variable {reserved : String → Bool} {σ : Type} {nosql : NoSqlStore σ} {mysql : MySql}
  {contents : σ → String → RedisEntry}

/-! ### One object -/

/-- The store has for the object what loading its table has left. -/
def LoadedFrom (contents : σ → String → RedisEntry) (obj : TableObjectMap) (t : Option Table)
    (db : σ) : Prop :=
  ∀ v, ':' ∉ (cStr v).toList →
    contents db (obj.objectName ++ ":" ++ v) = tableEntry obj t (obj.objectName ++ ":" ++ v) .absent

section Object

variable {obj : TableObjectMap} {t : Table} {g₀ g : DBGateway σ} {done : List String} {K v : String}
  {row : Row}

/-- A key under which a record was loaded is the key of a row, and that row is the last one with
this key. -/
theorem exists_row (hfits : obj.Fits reserved)
    (hloaded : LoadedFrom contents obj (some t) g₀.nosql) (hv : ':' ∉ (cStr v).toList)
    (hK : contents g₀.nosql (obj.objectName ++ ":" ++ v) ≠ .absent) :
    Mapped obj t.columns ∧ ∃ r ∈ t.rows,
      IsLast obj t.columns t.rows (obj.objectName ++ ":" ++ v) r ∧
        (contents g₀.nosql (obj.objectName ++ ":" ++ v)).IsRecord (obj.record t.columns r) := by
  rw [hloaded v hv, tableEntry] at hK ⊢
  split_ifs at hK with hmapped
  · rw [if_pos hmapped]
    refine ⟨hmapped, ?_⟩
    have hne : t.columns ≠ [] := by
      intro hnil
      rw [hnil, foldl_rowEntry_nil] at hK
      exact hK rfl
    rcases entry_cases hfits hmapped t.names_nodup hne (fun row ↦ Table.length_row) _ with
      ⟨habsent, -⟩ | h
    · exact absurd habsent hK
    · exact h
  · exact absurd rfl hK

/-- **A turn for a key of the object** writes the row with this key, and goes on with no text left
over. -/
theorem keyTurn_saved (hmysql : mysql.Executes reserved) (hnosql : nosql.Faithful contents)
    (hfits : obj.Fits reserved) (ht : TableFits obj t)
    (hfound : g₀.config.getTableObjectMapByTblname obj.tableName = some obj)
    (hloaded : LoadedFrom contents obj (some t) g₀.nosql)
    (hK : contents g₀.nosql (obj.objectName ++ ":" ++ v) ≠ .absent)
    (h : SaveState obj t g₀ done g) :
    ∃ g', keyTurn nosql mysql obj (g, "") (obj.objectName ++ ":" ++ v) = some (g', "") ∧
      SaveState obj t g₀ (done ++ [obj.objectName ++ ":" ++ v]) g' := by
  have hlength := le_length_key obj v
  have hown : ∀ row ∈ t.rows, WrittenBack obj t row →
      obj.recordKey t.columns row = obj.objectName ++ ":" ++ v → keyText t.columns row = v := by
    intro row hrow hwritten hsame
    rw [recordKey_of_writtenBack hfits ht hrow hwritten] at hsame
    exact (String.append_right_inj _).1 hsame
  by_cases hskips : ':' ∈ (cStr v).toList
  · refine ⟨g, keyTurn_of_idle hlength (.inl ((skips_fits hfits v).2 hskips)),
      h.skip rfl rfl rfl ?_⟩
    intro row hrow hwritten hsame
    have hcolon := hwritten.noColon
    rw [hown row hrow hwritten hsame] at hcolon
    rw [toList_cStr] at hskips
    exact hcolon (List.takeWhile_subset _ hskips)
  · obtain ⟨hmapped, r, hr, hlast, hrecord⟩ := exists_row hfits hloaded hskips hK
    have hnul : NoNul v := by
      have hkey : NoNul (obj.recordKey t.columns r) := noNul_cStr _
      rw [hlast.1] at hkey
      exact (noNul_append.1 hkey).2
    rw [cStr_eq_self.2 hnul] at hskips
    by_cases hv : v = ""
    · subst hv
      have hcolon : ':' ∈ (obj.objectName ++ ":" ++ "").toList := by simp [String.toList_append]
      refine ⟨g, ?_, h.skip rfl rfl rfl fun row hrow hwritten hsame ↦
        hwritten.key_ne (hown row hrow hwritten hsame)⟩
      by_cases hempty : nosql.getDataCacheAll g.nosql (cStr (obj.objectName ++ ":" ++ "")) = []
      · exact keyTurn_of_idle hlength (.inr hempty)
      · rw [keyTurn_eq hlength (by rw [skips_fits hfits]; simp [cStr]) hempty,
          valuesToMysql_of_none (tableKey_fits_empty hfits), if_pos hcolon]
        rfl
    · exact keyTurn_record hmysql hnosql hfits ht hmapped hfound hv hskips hr hlast hrecord h

/-- The keys are saved one after another: by induction over them, with the set of those that are
done. -/
theorem keysSaved (hmysql : mysql.Executes reserved) (hnosql : nosql.Faithful contents)
    (hfits : obj.Fits reserved) (ht : TableFits obj t)
    (hfound : g₀.config.getTableObjectMapByTblname obj.tableName = some obj)
    (hloaded : LoadedFrom contents obj (some t) g₀.nosql) {keys : List String}
    (hkeys : ∀ K ∈ keys, contents g₀.nosql K ≠ .absent ∧
      ∃ v, K = obj.objectName ++ ":" ++ v)
    (h : SaveState obj t g₀ done g) :
    ∃ g', keys.foldlM (keyTurn nosql mysql obj) (g, "") = some (g', "") ∧
      SaveState obj t g₀ (done ++ keys) g' := by
  induction keys generalizing done g with
  | nil => exact ⟨g, rfl, by rwa [List.append_nil]⟩
  | cons K keys ih =>
    obtain ⟨⟨hK, v, rfl⟩, hrest⟩ := List.forall_mem_cons.1 hkeys
    obtain ⟨g₁, hturn, h₁⟩ := keyTurn_saved hmysql hnosql hfits ht hfound hloaded hK h
    obtain ⟨g₂, hrun, h₂⟩ := ih hrest h₁
    refine ⟨g₂, ?_, by rwa [List.append_cons]⟩
    rw [List.foldlM_cons, hturn]
    exact hrun

/-- Without a table no record was loaded, so there are no keys to be saved. -/
theorem keysSaved_none (hfits : obj.Fits reserved) (hloaded : LoadedFrom contents obj none g.nosql)
    {keys : List String} (hkeys : ∀ K ∈ keys, contents g.nosql K ≠ .absent ∧
      ∃ v, K = obj.objectName ++ ":" ++ v) :
    keys.foldlM (keyTurn nosql mysql obj) (g, "") = some (g, "") := by
  induction keys with
  | nil => rfl
  | cons K keys ih =>
    obtain ⟨⟨hK, v, rfl⟩, hrest⟩ := List.forall_mem_cons.1 hkeys
    have hskips : ':' ∈ (cStr v).toList := by_contra fun hnot ↦ hK (hloaded v hnot)
    rw [List.foldlM_cons,
      keyTurn_of_idle (le_length_key obj v) (.inl ((skips_fits hfits v).2 hskips))]
    exact ih hrest

/-- A row that is written back has a record in the store. -/
theorem WrittenBack.record_ne_absent (hfits : obj.Fits reserved) (ht : TableFits obj t)
    (hloaded : LoadedFrom contents obj (some t) g.nosql) (hrow : row ∈ t.rows)
    (h : WrittenBack obj t row) : contents g.nosql (obj.recordKey t.columns row) ≠ .absent := by
  have hkey : KeyIsOneColumn t.columns := keyIsOneColumn ht (exists_isKeyColumn h.key_ne)
  have hcolon : ':' ∉ (cStr (keyText t.columns row)).toList := by
    rw [cStr_eq_self.2 (noNul_keyText ht hrow hkey h.noNul)]
    exact h.noColon
  have hne : t.columns ≠ [] := by
    intro hnil
    refine h.key_ne ?_
    rw [keyText, hnil]
    rfl
  have hrecordKey := recordKey_of_writtenBack hfits ht hrow h
  rw [hrecordKey, hloaded _ hcolon, tableEntry, if_pos h.mapped]
  rcases entry_cases hfits h.mapped t.names_nodup hne (fun row ↦ Table.length_row)
    (obj.objectName ++ ":" ++ keyText t.columns row) with ⟨-, hnone⟩ | ⟨r, -, -, fields, hhash, -⟩
  · exact absurd hrecordKey (hnone row hrow)
  · rw [hhash]
    exact RedisEntry.noConfusion

open scoped Classical in
/-- A row after loading and saving. -/
noncomputable def finalRow (obj : TableObjectMap) (t : Table) (row : Row) : Row :=
  if WrittenBack obj t row then storedRow t.columns row else row

/-- The table after loading and saving. -/
def FinalTable (obj : TableObjectMap) (t t' : Option Table) : Prop :=
  match t with
  | none => t' = none
  | some t => ∃ t₁, t' = some t₁ ∧ t₁.columns = t.columns ∧ t₁.rows = t.rows.map (finalRow obj t)

/-- The keys that `KEYS` returns are those of the object that have something stored under them. -/
theorem mem_getAllKeys (hnosql : nosql.Faithful contents) (hfits : obj.Fits reserved) (db : σ)
    (K : String) : K ∈ nosql.getAllKeys db (cStr (obj.objectName ++ ":*")) ↔
      contents db K ≠ .absent ∧ ∃ v, K = obj.objectName ++ ":" ++ v := by
  have hpattern : cStr (obj.objectName ++ ":*") = obj.objectName ++ ":" ++ "*" := by
    rw [cStr_eq_self.2 (noNul_append.2 ⟨hfits.noNul, by decide⟩), String.append_assoc]
    rfl
  have hplain : PlainPattern (obj.objectName ++ ":") := by
    intro c hc
    rw [String.toList_append, List.mem_append] at hc
    rcases hc with hc | hc
    · exact hfits.plain c hc
    · obtain rfl := List.mem_singleton.1 hc
      decide
  rw [hpattern, (hnosql.getAllKeys db _ hplain).2]
  refine and_congr_right fun _ ↦ ⟨?_, ?_⟩
  · rintro ⟨rest, hrest⟩
    exact ⟨String.ofList rest, by rw [← String.toList_inj, String.toList_append,
      String.toList_ofList, hrest]⟩
  · rintro ⟨v, rfl⟩
    rw [String.toList_append (s := obj.objectName ++ ":")]
    exact List.prefix_append _ _

/-- **Saving an object** is defined, changes no other table, and leaves the saved rows in its own.
-/
theorem saveObject (hmysql : mysql.Executes reserved) (hnosql : nosql.Faithful contents)
    (hfits : obj.Fits reserved) (ht : ∀ t, g.db obj.tableName = some t → TableFits obj t)
    (hfound : g.config.getTableObjectMapByTblname obj.tableName = some obj)
    (hloaded : LoadedFrom contents obj (g.db obj.tableName) g.nosql) :
    ∃ g', g.nosqlToMysqlByKeys nosql mysql
        (nosql.getAllKeys g.nosql (cStr (obj.objectName ++ ":*"))) obj = some g' ∧
      g'.config = g.config ∧ g'.nosql = g.nosql ∧
      (∀ name, name ≠ obj.tableName → g'.db name = g.db name) ∧
      FinalTable obj (g.db obj.tableName) (g'.db obj.tableName) := by
  have hkeys := mem_getAllKeys hnosql hfits g.nosql
  generalize nosql.getAllKeys g.nosql (cStr (obj.objectName ++ ":*")) = keys at hkeys
  rcases hdb : g.db obj.tableName with _ | t
  · rw [hdb] at hloaded
    refine ⟨g, ?_, rfl, rfl, fun _ _ ↦ rfl, hdb⟩
    rw [nosqlToMysqlByKeys, keysSaved_none hfits hloaded fun K hK ↦ (hkeys K).1 hK]
    rfl
  · rw [hdb] at hloaded
    obtain ⟨g', hrun, hsaved⟩ := keysSaved hmysql hnosql hfits (ht t hdb) hfound hloaded
      (fun K hK ↦ (hkeys K).1 hK) ⟨rfl, rfl, fun _ _ ↦ rfl, t, hdb, saved_nil obj t⟩
    obtain ⟨t', hdb', hcolumns, hrows⟩ := hsaved.table
    refine ⟨g', ?_, hsaved.config, hsaved.nosql, hsaved.others, t', hdb', hcolumns, ?_⟩
    · rw [nosqlToMysqlByKeys, hrun]
      rfl
    · rw [hrows]
      refine List.map_congr_left fun row hrow ↦ ?_
      unfold savedRow finalRow
      by_cases hwritten : WrittenBack obj t row
      · have hmem : obj.recordKey t.columns row ∈ [] ++ keys :=
          (hkeys _).2 ⟨hwritten.record_ne_absent hfits (ht t hdb) hloaded hrow, _,
            recordKey_of_writtenBack hfits (ht t hdb) hrow hwritten⟩
        rw [if_pos ⟨hwritten, hmem⟩, if_pos hwritten]
      · rw [if_neg (mt And.left hwritten), if_neg hwritten]

end Object

/-! ### All objects -/

section Objects

variable {obj : TableObjectMap} {configs l : List TableObjectMap} {g g' : DBGateway σ}

/-- The state before an object is saved. -/
structure Ready (contents : σ → String → RedisEntry) (reserved : String → Bool)
    (obj : TableObjectMap) (g : DBGateway σ) : Prop where
  fits : obj.Fits reserved
  table : ∀ t, g.db obj.tableName = some t → TableFits obj t
  found : g.config.getTableObjectMapByTblname obj.tableName = some obj
  loaded : LoadedFrom contents obj (g.db obj.tableName) g.nosql

/-- Being ready is a matter of the configuration, of the two stores' contact and of the one table.
-/
theorem Ready.congr (h : Ready contents reserved obj g) (hconfig : g'.config = g.config)
    (hnosql : g'.nosql = g.nosql) (hdb : g'.db obj.tableName = g.db obj.tableName) :
    Ready contents reserved obj g' where
  fits := h.fits
  table := by
    rw [hdb]
    exact h.table
  found := by
    rw [hconfig]
    exact h.found
  loaded := by
    rw [hdb, hnosql]
    exact h.loaded

/-- **Saving the objects**, one after another: each turns its own table into the final one. -/
theorem saveObjects (hmysql : mysql.Executes reserved) (hnosql : nosql.Faithful contents)
    (hnames : (l.map TableObjectMap.tableName).Nodup)
    (h : ∀ obj ∈ l, Ready contents reserved obj g) :
    ∃ g', l.foldlM (fun g obj ↦ g.nosqlToMysqlByKeys nosql mysql
        (nosql.getAllKeys g.nosql (cStr (obj.objectName ++ ":*"))) obj) g = some g' ∧
      (∀ name, name ∉ l.map TableObjectMap.tableName → g'.db name = g.db name) ∧
      ∀ obj ∈ l, FinalTable obj (g.db obj.tableName) (g'.db obj.tableName) := by
  induction l generalizing g with
  | nil => exact ⟨g, rfl, fun _ _ ↦ rfl, fun _ hobj ↦ absurd hobj List.not_mem_nil⟩
  | cons obj l ih =>
    obtain ⟨hobj, hl⟩ := List.forall_mem_cons.1 h
    obtain ⟨hnot, hnames⟩ := List.nodup_cons.1 hnames
    obtain ⟨g₁, hsave, hconfig, hdb, hothers, hfinal⟩ :=
      saveObject hmysql hnosql hobj.fits hobj.table hobj.found hobj.loaded
    -- The tables of the other objects are as they were.
    have hne : ∀ o ∈ l, o.tableName ≠ obj.tableName := fun o ho heq ↦
      hnot (heq ▸ List.mem_map_of_mem ho)
    obtain ⟨g₂, hrun, hrest, hfinals⟩ := ih hnames fun o ho ↦
      (hl o ho).congr hconfig hdb (hothers _ (hne o ho))
    refine ⟨g₂, ?_, fun name hname ↦ ?_, List.forall_mem_cons.2 ⟨?_, fun o ho ↦ ?_⟩⟩
    · rw [List.foldlM_cons, hsave]
      exact hrun
    · obtain ⟨hname, hnameRest⟩ := not_or.1 (mt List.mem_cons.2 hname)
      exact (hrest name hnameRest).trans (hothers name hname)
    · rw [hrest _ hnot]
      exact hfinal
    · rw [← hothers _ (hne o ho)]
      exact hfinals o ho

/-- No other object writes where the records of an object are. -/
theorem loadedFrom (hnosql : nosql.Faithful contents) (hfits : ∀ o ∈ configs, o.Fits reserved)
    (hnames : (configs.map TableObjectMap.objectName).Nodup) (hobj : obj ∈ configs) {db : σ}
    (hempty : ∀ K, contents db K = .absent) (tables : Database) :
    LoadedFrom contents obj (tables obj.tableName) (loadTables nosql configs tables db) := by
  intro v hv
  refine contents_loadTables nosql hnosql hfits hnames.of_map hobj (hempty _) ?_ ?_
  · intro o ho item hitem value heq
    rw [bindKey_fits (hfits o ho) hitem] at heq
    obtain ⟨-, rfl⟩ := eq_of_append_colon (hfits o ho).noColon (hfits obj hobj).noColon heq
    refine hv ?_
    rw [cStr_eq_self.2 (noNul_append.2 ⟨noNul_append.2 ⟨hitem, by decide⟩, noNul_cStr value⟩)]
    simp [String.toList_append]
  · intro o ho hne pk heq
    rw [keyOf_fits (hfits o ho)] at heq
    obtain ⟨hname, -⟩ := eq_of_append_colon (hfits o ho).noColon (hfits obj hobj).noColon heq
    exact hne (List.inj_on_of_nodup_map hnames ho hobj hname)

end Objects

/-! ### The first round -/

section FirstRound

variable {tables : List TableElement} {g : DBGateway σ}

/-- **Loading and saving at once.** Each table becomes the table of its saved rows, since objects
have tables and keys of their own and do not disturb each other. -/
theorem firstRound_eq (hconfig : initConfig tables = some g.config)
    (hfits : ∀ element ∈ tables, element.Fits reserved)
    (htables : (tables.map TableElement.tName).Nodup)
    (hobjects : (tables.map TableElement.rKeyPrefix).Nodup) (hmysql : mysql.Executes reserved)
    (hnosql : nosql.Faithful contents) (hempty : ∀ K, contents g.nosql K = .absent)
    (ht : ∀ obj ∈ g.config.configs, ∀ t, g.db obj.tableName = some t → TableFits obj t) :
    ∃ g', g.firstRound nosql mysql = some g' ∧
      ∀ obj ∈ g.config.configs, FinalTable obj (g.db obj.tableName) (g'.db obj.tableName) := by
  have hobjFits : ∀ obj ∈ g.config.configs, obj.Fits reserved := by
    intro obj hobj
    obtain ⟨element, helement, hdescribes⟩ := exists_describes hconfig hobj
    exact hdescribes.fits (hfits element helement)
  have htableNames : (g.config.configs.map TableObjectMap.tableName).Nodup := by
    rwa [map_eq_map_of_describes hconfig fun element obj h ↦ h.tableName]
  have hobjectNames : (g.config.configs.map TableObjectMap.objectName).Nodup := by
    rwa [map_eq_map_of_describes hconfig fun element obj h ↦ h.objectName]
  have hfound : ∀ obj ∈ g.config.configs,
      g.config.getTableObjectMapByTblname obj.tableName = some obj :=
    fun obj ↦ getTableObjectMapByTblname_eq hconfig htables
  obtain ⟨g', hsave, -, hfinal⟩ := saveObjects (g := { g with
      nosql := loadTables nosql g.config.configs g.db g.nosql }) hmysql hnosql htableNames
    fun obj hobj ↦ ⟨hobjFits obj hobj, ht obj hobj, hfound obj hobj,
      loadedFrom hnosql hobjFits hobjectNames hobj hempty g.db⟩
  refine ⟨g', ?_, hfinal⟩
  rw [firstRound,
    mysqlToRedis_eq nosql hmysql (fun obj hobj ↦ (hobjFits obj hobj).tableName) hfound]
  exact hsave

end FirstRound

/-! ### What is lost -/

section Lost

variable {obj : TableObjectMap} {columns : List Column} {c : Column} {x : Cell} {t : Table}
  {row : Row} {u : String}

/-- The texts of the column are replaced by `default_bin_data`. -/
def IsReplaced (c : Column) : Prop :=
  (fieldTypeMap c.type = .strings ∨ fieldTypeMap c.type = .binary) ∧
    fieldFlagMap c.flags &&& fieldFlagBinary ≠ 0

instance (c : Column) : Decidable (IsReplaced c) := inferInstanceAs (Decidable (_ ∧ _))

/-- The text of the key of the row: a column has it that is flagged as the primary key, and not as
`BINARY`. -/
def HasKey (columns : List Column) (row : Row) (u : String) : Prop :=
  ∃ c, IsKeyColumn c ∧ (c, some u) ∈ columns.zip row

/-- The row is written back: all columns have a field; the row has a key that is not empty and has
no colon; up to a NUL, no later row has the same; and no text that is stored has a NUL. -/
structure IsReturned (obj : TableObjectMap) (t : Table) (row : Row) : Prop where
  mapped : Mapped obj t.columns
  key : ∃ u, HasKey t.columns row u ∧ u ≠ "" ∧ ':' ∉ u.toList ∧
    ∃ before after, t.rows = before ++ row :: after ∧
      ∀ row' ∈ after, ∀ u', HasKey t.columns row' u' → cStr u' ≠ u
  noNul : ∀ c u, (c, some u) ∈ t.columns.zip row → ¬ IsReplaced c → NoNul u

/-- The cell is not `NULL`, and its text is not replaced by another one. -/
def Survives (c : Column) (x : Cell) : Prop :=
  ∃ u, x = some u ∧ (IsReplaced c → u = "default_bin_data")

/-- What is stored for a cell: its text, except that a binary column which is not empty has the
placeholder. -/
theorem storedText_eq (c : Column) (x : Cell) :
    storedText c x = if IsReplaced c then "default_bin_data" else x.getD "" := by
  have htype : (FieldInfo.ofColumn c).fieldType = fieldTypeMap c.type := rfl
  have hflag : (FieldInfo.ofColumn c).fieldFlag = fieldFlagMap c.flags := rfl
  unfold storedText redisValue
  rw [htype, hflag]
  split
  · next h => exact (if_neg (by simp [IsReplaced, h])).symm
  · next h => exact (if_neg (by simp [IsReplaced, h])).symm
  · next h => exact if_congr (by simp [IsReplaced, h]) rfl rfl
  · next h => exact if_congr (by simp [IsReplaced, h]) rfl rfl

/-- A cell survives if and only if it is read back as it was. -/
theorem survives_iff : Survives c x ↔ some (storedText c x) = x := by
  rw [storedText_eq, Survives]
  rcases x with _ | u
  · simp
  · split_ifs with hreplaced
    · simp [hreplaced, eq_comm]
    · simp [hreplaced]

/-- A row is read back as it was if and only if all its cells are. -/
theorem storedRow_eq_self_iff (h : row.length = columns.length) :
    storedRow columns row = row ↔ ∀ p ∈ columns.zip row, Survives p.1 p.2 := by
  have hrow : (columns.zip row).map Prod.snd = row := List.map_snd_zip (Nat.le_of_eq h)
  have hstored : storedRow columns row =
      (columns.zip row).map fun p ↦ some (storedText p.1 p.2) := by
    rw [List.map_zip_eq_zipWith]
    rfl
  calc storedRow columns row = row
    _ ↔ (columns.zip row).map (fun p ↦ some (storedText p.1 p.2)) =
          (columns.zip row).map Prod.snd := by rw [hstored, hrow]
    _ ↔ ∀ p ∈ columns.zip row, some (storedText p.1 p.2) = p.2 := List.map_inj_left
    _ ↔ ∀ p ∈ columns.zip row, Survives p.1 p.2 :=
      forall₂_congr fun p _ ↦ survives_iff.symm

/-- The key text of a row is the key that the row is stored under. -/
theorem keyText_of_hasKey (ht : TableFits obj t) (hrow : row ∈ t.rows)
    (h : HasKey t.columns row u) : keyText t.columns row = u := by
  obtain ⟨c, hc, hmem⟩ := h
  have hcolumn := (List.of_mem_zip hmem).1
  have hkey : KeyIsOneColumn t.columns := keyIsOneColumn ht ⟨c, hcolumn, hc⟩
  have hcell := cell_of_mem_zip t.names_nodup hmem
  rw [ht.key c hcolumn (isPrimary_of_isKeyColumn hc), cell_key ht hkey hrow] at hcell
  exact Option.some.inj (Option.some.inj hcell)

/-- A row has the key that its own key text says, when the key is one column. -/
theorem hasKey_keyText (ht : TableFits obj t) (hkey : KeyIsOneColumn t.columns)
    (hrow : row ∈ t.rows) : HasKey t.columns row (keyText t.columns row) := by
  obtain ⟨c, hc, -, hmem⟩ := key_mem_zip ht hkey hrow
  exact ⟨c, hc, hmem⟩

/-- What is stored has no NUL in it, unless the cell has one and is not replaced. -/
theorem noNul_storedText : NoNul (storedText c x) ↔ ∀ u, x = some u → ¬ IsReplaced c → NoNul u := by
  rw [storedText_eq]
  split_ifs with hreplaced
  · exact ⟨fun _ u _ hnot ↦ absurd hreplaced hnot, fun _ ↦ by decide⟩
  · rcases x with _ | u
    · exact ⟨fun _ u hu ↦ (Option.some_ne_none u hu.symm).elim, fun _ ↦ by decide⟩
    · exact ⟨fun h u' hu _ ↦ Option.some.inj hu ▸ h, fun h ↦ h u rfl hreplaced⟩

/-- **The rows that are written back**, said once about the cells of the table and once about the
texts that the code computes from them: both come to the same. -/
theorem isReturned_iff (ht : TableFits obj t) (hrow : row ∈ t.rows) :
    IsReturned obj t row ↔ WrittenBack obj t row := by
  constructor
  · rintro ⟨hmapped, ⟨u, hu, hne, hcolon, before, after, hrows, hafter⟩, hnul⟩
    obtain rfl := keyText_of_hasKey ht hrow hu
    refine ⟨hmapped, hne, hcolon, fun p hp ↦ noNul_storedText.2 fun u hx ↦ hnul p.1 u (hx ▸ hp),
      before, after, hrows, fun row' hrow' ↦ ?_⟩
    refine hafter row' hrow' _ (hasKey_keyText ht (keyIsOneColumn ht (exists_isKeyColumn hne)) ?_)
    rw [hrows]
    exact List.mem_append_right _ (List.mem_cons_of_mem _ hrow')
  · rintro ⟨hmapped, hne, hcolon, hnul, before, after, hrows, hafter⟩
    have hkey : KeyIsOneColumn t.columns := keyIsOneColumn ht (exists_isKeyColumn hne)
    refine ⟨hmapped, ⟨_, hasKey_keyText ht hkey hrow, hne, hcolon, before, after, hrows,
      fun row' hrow' u' hu' ↦ ?_⟩, fun c u hmem hnot ↦ noNul_storedText.1 (hnul _ hmem) u rfl hnot⟩
    have hmem : row' ∈ t.rows := by
      rw [hrows]
      exact List.mem_append_right _ (List.mem_cons_of_mem _ hrow')
    rw [← keyText_of_hasKey ht hmem hu']
    exact hafter row' hrow'

/-- The final table is the one there was, if every row that is written back survives. -/
theorem finalTable_eq_iff {tables tables' : Option Table}
    (ht : ∀ t, tables = some t → TableFits obj t) (h : FinalTable obj tables tables') :
    tables' = tables ↔ ∀ t, tables = some t → ∀ row ∈ t.rows, IsReturned obj t row →
      ∀ p ∈ t.columns.zip row, Survives p.1 p.2 := by
  rcases tables with _ | t
  · exact ⟨fun _ t ht ↦ (Option.some_ne_none t ht.symm).elim, fun _ ↦ h⟩
  · obtain ⟨t₁, rfl, hcolumns, hrows⟩ := h
    have hfinal : ∀ row ∈ t.rows, finalRow obj t row = row ↔
        (IsReturned obj t row → ∀ p ∈ t.columns.zip row, Survives p.1 p.2) := by
      intro row hrow
      rw [isReturned_iff (ht t rfl) hrow, ← storedRow_eq_self_iff (Table.length_row hrow), finalRow]
      split_ifs with hwritten
      · exact (imp_iff_right hwritten).symm
      · exact iff_of_true rfl fun h ↦ absurd h hwritten
    have hsame : some t₁ = some t ↔ ∀ row ∈ t.rows, finalRow obj t row = row := by
      rw [Option.some_inj, Table.ext_iff, and_iff_right hcolumns, hrows]
      conv_lhs => rw [← List.map_id t.rows, List.map_map]
      exact List.map_inj_left
    rw [hsame, forall₂_congr hfinal]
    exact ⟨fun h t' ht' ↦ Option.some.inj ht' ▸ h, fun h ↦ h t rfl⟩

variable {tables : List TableElement} {g : DBGateway σ}

/-- **Nothing is lost** exactly if every row that is written back survives. -/
theorem roundTrip_iff (hconfig : initConfig tables = some g.config)
    (hfits : ∀ element ∈ tables, element.Fits reserved)
    (htables : (tables.map TableElement.tName).Nodup)
    (hobjects : (tables.map TableElement.rKeyPrefix).Nodup) (hmysql : mysql.Executes reserved)
    (hnosql : nosql.Faithful contents) (hempty : ∀ K, contents g.nosql K = .absent)
    (ht : ∀ obj ∈ g.config.configs, ∀ t, g.db obj.tableName = some t → TableFits obj t) :
    (∃ g', g.firstRound nosql mysql = some g' ∧
        ∀ obj ∈ g.config.configs, g'.db obj.tableName = g.db obj.tableName) ↔
      ∀ obj ∈ g.config.configs, ∀ t, g.db obj.tableName = some t → ∀ row ∈ t.rows,
        IsReturned obj t row → ∀ p ∈ t.columns.zip row, Survives p.1 p.2 := by
  obtain ⟨g', hround, hfinal⟩ :=
    firstRound_eq hconfig hfits htables hobjects hmysql hnosql hempty ht
  rw [hround]
  simp only [Option.some.injEq, exists_eq_left']
  exact forall₂_congr fun obj hobj ↦ finalTable_eq_iff (ht obj hobj) (hfinal obj hobj)

/-! ### One table -/

/-- An element for a table with a key and a text. -/
def textElement : TableElement where
  tName := "t"
  rKeyPrefix := "o"
  tPrimaryKeyField := "k"
  rKeySeparator := ":"
  fields := [("k", "k"), ("b", "b")]

/-- The column for the text, which may be `BINARY`. -/
def textColumn (binary : Bool) : Column where
  name := "b"
  type := 252
  flags := if binary then binaryFlag else 0

/-- The columns of the table. -/
def textColumns (binary : Bool) : List Column := [keyColumn "k" 0, textColumn binary]

theorem keyCells_textColumns (binary : Bool) (x : Cell) :
    keyCells (textColumns binary) [some "1", x] = [some "1"] := by
  have hkey : (keyColumn "k" 0).isPrimary = true := by decide
  have htext : (textColumn binary).isPrimary = false := by cases binary <;> decide
  simp [keyCells, textColumns, hkey, htext]

/-- The table, with one row. -/
def textTable (binary : Bool) (x : Cell) : Table where
  columns := textColumns binary
  rows := [[some "1", x]]
  names_nodup := by cases binary <;> decide
  valid := by
    refine ⟨by simp [textColumns], ?_, fun _ ↦ List.nodup_singleton _⟩
    rw [List.forall_mem_singleton, keyCells_textColumns]
    decide

/-- The gateway before it loads anything. -/
def textGateway (binary : Bool) (x : Cell) : DBGateway (Std.ExtTreeMap String RedisValue) where
  config := (initConfig [textElement]).getD {}
  db name := if name = "t" then some (textTable binary x) else none
  nosql := ∅

theorem initConfig_textElement :
    initConfig [textElement] = some ((initConfig [textElement]).getD {}) := by
  have hitems : ∀ element ∈ [textElement], ∃ items,
      getBindItems element.rKeySeparator element.bindItem = some items :=
    List.forall_mem_singleton.2 ⟨∅, rfl⟩
  obtain ⟨config, hconfig⟩ := exists_initConfig hitems
  rw [hconfig, Option.getD_some]

theorem textElement_fits : textElement.Fits fun _ ↦ false where
  tName := by decide
  tPrimaryKeyField := by decide
  rKeySeparator := rfl
  noColon := by decide
  noNul := by decide
  plain := by
    intro c hc
    obtain rfl := List.mem_singleton.1 hc
    decide
  names := by decide
  columns_nodup := by decide
  fields_nodup := by decide

/-- What is known of the only object of the example: its table, and that the table fits. -/
theorem textGateway_fits {binary : Bool} (hx : ∀ u, x = some u → IsPlain u) :
    ∀ obj ∈ (textGateway binary x).config.configs, ∀ t,
      (textGateway binary x).db obj.tableName = some t →
        t = textTable binary x ∧ TableFits obj t := by
  intro obj hobj t ht
  obtain ⟨element, helement, hdescribes⟩ := exists_describes initConfig_textElement hobj
  obtain rfl := List.mem_singleton.1 helement
  rw [hdescribes.tableName] at ht
  obtain rfl : textTable binary x = t := Option.some.inj ht
  refine ⟨rfl, ?_, ?_⟩
  · have hprimary : ∀ c ∈ textColumns binary, c.isPrimary → c.name = "k" := by
      cases binary <;> decide
    rw [hdescribes.tblKeyName]
    exact hprimary
  · refine List.forall_mem_singleton.2 fun u hu ↦ ?_
    rcases List.mem_pair.1 hu with heq | heq
    · obtain rfl := Option.some.inj heq
      decide
    · exact hx u heq.symm

/-- The only row of the example's table is written back. -/
theorem isReturned_textTable {binary : Bool} (hdescribes : textElement.Describes obj)
    (hx : ∀ u, x = some u → NoNul u) :
    IsReturned obj (textTable binary x) [some "1", x] where
  mapped := by
    have hfields : ∀ name ∈ ["k", "b"], obj.getObjFieldName name ≠ "" := by
      intro name hname
      have hmem : (name, name) ∈ textElement.fields := by
        rcases List.mem_pair.1 hname with rfl | rfl <;> decide
      have hfield : obj.tableObjectMap[name]? = some name := by
        rw [hdescribes.tableObjectMap]
        exact (getElem?_filled (by decide) name name).2 ⟨_, hmem, rfl, rfl⟩
      rw [TableObjectMap.getObjFieldName, hfield, Option.getD_some]
      rcases List.mem_pair.1 hname with rfl | rfl <;> decide
    have hnames : ∀ c ∈ textColumns binary, c.name ∈ ["k", "b"] := by
      cases binary <;> decide
    exact fun c hc ↦ hfields _ (hnames c hc)
  key := by
    refine ⟨"1", ⟨keyColumn "k" 0, by decide, List.mem_cons_self⟩, by decide, by decide, [], [],
      rfl, ?_⟩
    simp
  noNul c u hmem _ := by
    rcases List.mem_pair.1 hmem with heq | heq
    · obtain rfl := Option.some.inj (Prod.mk.inj heq).2
      decide
    · exact hx u (Prod.mk.inj heq).2.symm

/-- If the text of the example does not survive, the table is another one after the round. -/
theorem not_firstRound_textGateway {binary : Bool} (hplain : ∀ u, x = some u → IsPlain u)
    (hx : ∀ u, x = some u → NoNul u) (hlost : ¬ Survives (textColumn binary) x) :
    ¬ ∃ g', (textGateway binary x).firstRound .inMemory (.reader fun _ ↦ false) = some g' ∧
      ∀ obj ∈ (textGateway binary x).config.configs,
        g'.db obj.tableName = (textGateway binary x).db obj.tableName := by
  rintro ⟨g', hround, hsame⟩
  have ht : ∀ obj ∈ (textGateway binary x).config.configs, ∀ t,
      (textGateway binary x).db obj.tableName = some t → TableFits obj t :=
    fun obj hobj t hdb ↦ (textGateway_fits hplain obj hobj t hdb).2
  obtain ⟨g₁, hround₁, hfinal⟩ := firstRound_eq (g := textGateway binary x) initConfig_textElement
    (List.forall_mem_singleton.2 textElement_fits) (List.nodup_singleton _)
    (List.nodup_singleton _) (MySql.reader_executes _) NoSqlStore.inMemory_faithful
    (fun K ↦ inMemoryContents_of_none Std.ExtTreeMap.getElem?_empty) ht
  obtain rfl := Option.some.inj (hround₁.symm.trans hround)
  obtain ⟨obj, rest, hdescribes, -, hconfigs⟩ :=
    List.forall₂_cons_left_iff.1 (forall₂_describes initConfig_textElement)
  have hobj : obj ∈ (textGateway binary x).config.configs := hconfigs ▸ List.mem_cons_self
  have hdb : (textGateway binary x).db obj.tableName = some (textTable binary x) := by
    rw [hdescribes.tableName]
    rfl
  refine hlost ((finalTable_eq_iff (ht obj hobj) (hfinal obj hobj)).1 (hsame obj hobj) _ hdb
    [some "1", x] List.mem_cons_self (isReturned_textTable hdescribes hx) (textColumn binary, x) ?_)
  exact List.mem_cons_of_mem _ List.mem_cons_self

/-- A row with a text comes back as it was. -/
theorem roundTrip_text : ∃ g',
    (textGateway false (some "x")).firstRound .inMemory (.reader fun _ ↦ false) = some g' ∧
      ∀ obj ∈ (textGateway false (some "x")).config.configs,
        g'.db obj.tableName = (textGateway false (some "x")).db obj.tableName := by
  have hplain : ∀ u, some "x" = some u → IsPlain u := by
    rintro u ⟨⟩
    decide
  refine (roundTrip_iff initConfig_textElement (List.forall_mem_singleton.2 textElement_fits)
    (List.nodup_singleton _) (List.nodup_singleton _) (MySql.reader_executes _)
    NoSqlStore.inMemory_faithful (fun K ↦ inMemoryContents_of_none Std.ExtTreeMap.getElem?_empty)
    fun obj hobj t hdb ↦ (textGateway_fits hplain obj hobj t hdb).2).2
      fun obj hobj t hdb row hrow _ p hp ↦ ?_
  obtain rfl := (textGateway_fits hplain obj hobj t hdb).1
  obtain rfl := List.mem_singleton.1 hrow
  rcases List.mem_pair.1 hp with rfl | rfl
  · exact ⟨"1", rfl, fun h ↦ absurd h (by decide)⟩
  · exact ⟨"x", rfl, fun h ↦ absurd h (by decide)⟩

/-- Two rows that do not come back: a text in a `BINARY` column is replaced by a placeholder, and a
`NULL` becomes the empty text. -/
theorem not_roundTrip :
    (¬ ∃ g', (textGateway true (some "x")).firstRound .inMemory (.reader fun _ ↦ false) = some g' ∧
      ∀ obj ∈ (textGateway true (some "x")).config.configs,
        g'.db obj.tableName = (textGateway true (some "x")).db obj.tableName) ∧
    ¬ ∃ g', (textGateway false none).firstRound .inMemory (.reader fun _ ↦ false) = some g' ∧
      ∀ obj ∈ (textGateway false none).config.configs,
        g'.db obj.tableName = (textGateway false none).db obj.tableName := by
  constructor
  · refine not_firstRound_textGateway ?_ ?_ ?_
    · rintro u ⟨⟩
      decide
    · rintro u ⟨⟩
      decide
    · rintro ⟨u, ⟨⟩, hreplaced⟩
      exact absurd (hreplaced (by decide)) (by decide)
  · refine not_firstRound_textGateway ?_ ?_ ?_
    · rintro u ⟨⟩
    · rintro u ⟨⟩
    · rintro ⟨u, ⟨⟩, -⟩

end Lost

end QCLib
