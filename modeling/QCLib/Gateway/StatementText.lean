import QCLib.Gateway.DBGateway

/-!
# The statements of the gateway

The texts that the gateway puts together, and what a server reads in them. A loop over the fields of
a record writes a comma behind every piece, and the last one is taken away again; so what is left
are the pieces with commas between them (`updateRowMysql_of_mapped`, `insertRowToMysql_of_mapped`).

A name of a column or table is a word (`IsWord`), and is neither quoted nor escaped by the code;
that names are words is asked of the configuration. Values are arbitrary. The texts are built by
appending to a string that already begins the statement, so the lemmas on the loops are about any
text that is there before.
-/

namespace QCLib

open CStrings Sql DBGateway

variable {w : String}

theorem noNul_of_isWord (h : IsWord w) : NoNul w := by
  rintro c hc rfl
  exact absurd (h.2 _ hc) (by decide)

/-! ### Texts -/

/-- All fields of a record have a column. -/
def AllMapped (obj : TableObjectMap) (record : List KeyValue) : Prop :=
  ∀ kv ∈ record, obj.getTblFieldName kv.field ≠ ""

instance (obj : TableObjectMap) (record : List KeyValue) : Decidable (AllMapped obj record) :=
  inferInstanceAs (Decidable (∀ kv ∈ record, _))

/-- What `UpdateRowMysql` writes for a field. -/
def assignmentText (obj : TableObjectMap) (kv : KeyValue) : String :=
  obj.getTblFieldName kv.field ++ "='" ++ kv.value ++ "'"

/-- What `InsertRowToMysql` writes for a value. -/
def valueText (kv : KeyValue) : String := "'" ++ kv.value ++ "'"

/-- The whole text of an `update`. -/
def updateText (obj : TableObjectMap) (tblname : String) (record : List KeyValue)
    (condition : String) : String :=
  "update " ++ tblname ++ " set " ++ ",".intercalate (record.map (assignmentText obj)) ++ " " ++
    condition

/-- The whole text of an `insert`. -/
def insertText (obj : TableObjectMap) (tblname : String) (record : List KeyValue) : String :=
  "insert into " ++ (tblname ++ "(" ++
    ",".intercalate (record.map fun kv ↦ obj.getTblFieldName kv.field) ++ ")") ++ " " ++
      ("values(" ++ ",".intercalate (record.map valueText) ++ ")") ++ ";"

section Loops

variable {obj : TableObjectMap} {record : List KeyValue} {config : ConfigIndexMap}

/-- A piece in front of others has a comma behind it. -/
theorem intercalate_cons {piece : String} {pieces : List String} (hne : pieces ≠ []) :
    ",".intercalate (piece :: pieces) = piece ++ ("," ++ ",".intercalate pieces) := by
  rw [← String.toList_inj, String.toList_append, String.toList_append, String.toList_intercalate,
    String.toList_intercalate, List.map_cons,
    List.intercalate_cons_of_ne_nil (by simpa using hne), List.append_assoc]

/-- Pieces with a comma behind each of them, without the last comma. -/
theorem dropLast_flatMap_comma {pieces : List String} (hne : pieces ≠ []) (front : List Char) :
    (front ++ pieces.flatMap fun piece ↦ piece.toList ++ [',']).dropLast =
      front ++ (",".intercalate pieces).toList := by
  induction pieces generalizing front with
  | nil => exact absurd rfl hne
  | cons piece pieces ih =>
    rw [List.flatMap_cons, ← List.append_assoc]
    rcases eq_or_ne pieces [] with rfl | hne
    · rw [List.flatMap_nil, List.append_nil, ← List.append_assoc, List.dropLast_concat]
      rfl
    · rw [ih hne, intercalate_cons hne, String.toList_append, String.toList_append]
      simp only [List.append_assoc]
      rfl

/-- When all fields are mapped, the loop appends an assignment for each of them, with a comma behind
it. -/
theorem updateLoop_of_mapped (h : AllMapped obj record) (sqlstr : String) :
    updateLoop obj record sqlstr = (String.ofList (sqlstr.toList ++
      (record.map (assignmentText obj)).flatMap fun piece ↦ piece.toList ++ [',']), false) := by
  induction record generalizing sqlstr with
  | nil => simp [updateLoop]
  | cons kv record ih =>
    obtain ⟨hkv, hrecord⟩ := List.forall_mem_cons.1 h
    rw [updateLoop, if_neg hkv, ih hrecord]
    simp [assignmentText, String.toList_append]

/-- A field without a column leaves the loop with the text so far. -/
theorem updateLoop_of_not_mapped (h : ¬ AllMapped obj record) (sqlstr : String) :
    ∃ more, updateLoop obj record sqlstr = (sqlstr ++ more, true) := by
  induction record generalizing sqlstr with
  | nil => exact absurd (fun _ hkv ↦ absurd hkv List.not_mem_nil) h
  | cons kv record ih =>
    rw [updateLoop]
    split_ifs with hkv
    · exact ⟨"", by rw [String.append_empty]⟩
    · obtain ⟨more, hmore⟩ := ih (fun hrecord ↦ h (List.forall_mem_cons.2 ⟨hkv, hrecord⟩))
        (sqlstr ++ obj.getTblFieldName kv.field ++ "='" ++ kv.value ++ "',")
      exact ⟨_, by rw [hmore]; simp only [String.append_assoc]; rfl⟩

/-- When all fields are mapped, both lists are built in one go, with a comma behind every piece. -/
theorem insertLoop_of_mapped (h : AllMapped obj record) (names values : String) :
    insertLoop obj record names values = some
      (String.ofList (names.toList ++
        (record.map fun kv ↦ obj.getTblFieldName kv.field).flatMap fun piece ↦
          piece.toList ++ [',']),
      String.ofList (values.toList ++
        (record.map valueText).flatMap fun piece ↦ piece.toList ++ [','])) := by
  induction record generalizing names values with
  | nil => simp [insertLoop]
  | cons kv record ih =>
    obtain ⟨hkv, hrecord⟩ := List.forall_mem_cons.1 h
    rw [insertLoop, if_neg hkv, ih hrecord]
    simp [valueText, String.toList_append]

/-- An insert is given up at the first field that is not mapped. -/
theorem insertLoop_of_not_mapped (h : ¬ AllMapped obj record) (names values : String) :
    insertLoop obj record names values = none := by
  induction record generalizing names values with
  | nil => exact absurd (fun _ hkv ↦ absurd hkv List.not_mem_nil) h
  | cons kv record ih =>
    rw [insertLoop]
    split_ifs with hkv
    · rfl
    · exact ih (fun hrecord ↦ h (List.forall_mem_cons.2 ⟨hkv, hrecord⟩)) _ _

variable {tblname sqlstr condition : String}

/-- **The statement of `UpdateRowMysql`**, if all fields are mapped. -/
theorem updateRowMysql_of_mapped (hobj : config.getTableObjectMapByTblname tblname = some obj)
    (h : AllMapped obj record) (hne : record ≠ []) :
    updateRowMysql config tblname record sqlstr condition =
      updateText obj tblname record condition := by
  rw [updateRowMysql, hobj]
  dsimp only
  rw [updateLoop_of_mapped h]
  dsimp only
  rw [String.toList_ofList, dropLast_flatMap_comma (by simpa using hne), String.ofList_append,
    String.ofList_toList, String.ofList_toList, updateText]

/-- When a field is not mapped, the loop is left in the middle, and the text that it has built so
far stays behind as the statement. -/
theorem updateRowMysql_of_not_mapped (hobj : config.getTableObjectMapByTblname tblname = some obj)
    (h : ¬ AllMapped obj record) :
    updateRowMysql config tblname record sqlstr condition ≠ "" := by
  obtain ⟨more, hmore⟩ := updateLoop_of_not_mapped h ("update " ++ tblname ++ " set ")
  rw [updateRowMysql, hobj]
  dsimp only
  rw [hmore]
  dsimp only
  intro hempty
  have hlength := congrArg String.length hempty
  simp [String.length_append] at hlength

/-- Without a mapping for the table, the statement stays empty. -/
theorem updateRowMysql_of_none (hobj : config.getTableObjectMapByTblname tblname = none) :
    updateRowMysql config tblname record sqlstr condition = sqlstr := by
  rw [updateRowMysql, hobj]

/-- **The statement of `InsertRowToMysql`**, if all fields are mapped. -/
theorem insertRowToMysql_of_mapped (hobj : config.getTableObjectMapByTblname tblname = some obj)
    (h : AllMapped obj record) (hne : record ≠ []) :
    insertRowToMysql config tblname record sqlstr = insertText obj tblname record := by
  rw [insertRowToMysql, hobj]
  dsimp only
  rw [insertLoop_of_mapped h]
  dsimp only
  rw [if_neg hne, if_neg hne, String.toList_ofList, String.toList_ofList,
    dropLast_flatMap_comma (by simpa using hne), dropLast_flatMap_comma (by simpa using hne),
    String.ofList_append, String.ofList_append, String.ofList_toList, String.ofList_toList,
    String.ofList_toList, String.ofList_toList, insertText]

/-- When a field is not mapped, the insert is given up before anything is written, and the statement
stays what it was. -/
theorem insertRowToMysql_of_not_mapped
    (hobj : config.getTableObjectMapByTblname tblname = some obj) (h : ¬ AllMapped obj record) :
    insertRowToMysql config tblname record sqlstr = sqlstr := by
  rw [insertRowToMysql, hobj]
  dsimp only
  rw [insertLoop_of_not_mapped h]

/-- Without a mapping for the table, the insert stays empty. -/
theorem insertRowToMysql_of_none (hobj : config.getTableObjectMapByTblname tblname = none) :
    insertRowToMysql config tblname record sqlstr = sqlstr := by
  rw [insertRowToMysql, hobj]

/-! ### Texts without a NUL -/

/-- There is no NUL in what comes from the record and its table. -/
def NoNulIn (obj : TableObjectMap) (tblname : String) (record : List KeyValue) : Prop :=
  NoNul tblname ∧ ∀ kv ∈ record, NoNul (obj.getTblFieldName kv.field) ∧ NoNul kv.value

instance (obj : TableObjectMap) (tblname : String) (record : List KeyValue) :
    Decidable (NoNulIn obj tblname record) :=
  inferInstanceAs (Decidable (_ ∧ ∀ kv ∈ record, _))

/-- A list of pieces has no NUL if none of them has one. -/
theorem noNul_intercalate {pieces : List String} :
    NoNul (",".intercalate pieces) ↔ ∀ piece ∈ pieces, NoNul piece := by
  induction pieces with
  | nil => simp [NoNul]
  | cons piece pieces ih =>
    rw [List.forall_mem_cons, ← ih]
    rcases eq_or_ne pieces [] with rfl | hne
    · simp [NoNul]
    · rw [intercalate_cons hne, noNul_append, noNul_append]
      exact and_congr_right fun _ ↦ and_iff_right (by decide)

/-- The condition has no NUL if the key's name and value have none. -/
theorem noNul_whereKey {keyname tblKey : String} :
    NoNul (whereKey keyname tblKey) ↔ NoNul keyname ∧ NoNul tblKey := by
  have hwhere : NoNul " where " := by decide
  have hequals : NoNul " = '" := by decide
  have hend : NoNul "';" := by decide
  simp only [whereKey, noNul_append, hwhere, hequals, hend, true_and, and_true]

theorem noNul_updateText : NoNul (updateText obj tblname record condition) ↔
    NoNulIn obj tblname record ∧ NoNul condition := by
  have hupdate : NoNul "update " := by decide
  have hset : NoNul " set " := by decide
  have hequals : NoNul "='" := by decide
  have hquote : NoNul "'" := by decide
  have hspace : NoNul " " := by decide
  simp only [updateText, noNul_append, noNul_intercalate, List.forall_mem_map, assignmentText,
    hupdate, hset, hequals, hquote, hspace, true_and, and_true, NoNulIn]

theorem noNul_insertText : NoNul (insertText obj tblname record) ↔ NoNulIn obj tblname record := by
  have hinto : NoNul "insert into " := by decide
  have hopen : NoNul "(" := by decide
  have hclose : NoNul ")" := by decide
  have hvalues : NoNul "values(" := by decide
  have hquote : NoNul "'" := by decide
  have hspace : NoNul " " := by decide
  have hend : NoNul ";" := by decide
  simp only [insertText, noNul_append, noNul_intercalate, List.forall_mem_map, valueText,
    hinto, hopen, hclose, hvalues, hquote, hspace, hend, true_and, and_true, NoNulIn, and_assoc,
    ← forall_and]

end Loops

/-! ### Queries -/

variable {reserved : String → Bool} {table key value : String}

/-- The text of `MysqlToNoSql` selects the whole table. -/
theorem read_selectAll (htable : IsName reserved table) :
    Sql.read reserved ("select * from " ++ table ++ ";") = some (.selectAll table) := by
  refine read_of_lex ?_ trivial ?_
  · have htext : ("select * from " ++ table ++ ";").toList =
        "select".toList ++ ' ' :: '*' :: ' ' ::
          ("from".toList ++ ' ' :: (table.toList ++ [';'])) := by
      simp [String.toList_append]
    rw [htext, lex_word (by decide) rfl, lex_space, lex_symbol rfl, lex_space,
      lex_word (by decide) rfl, lex_space, lex_word htable.1 rfl, lex_symbol rfl]
    rfl
  · simpa [Statement.names] using htable.2

end QCLib
