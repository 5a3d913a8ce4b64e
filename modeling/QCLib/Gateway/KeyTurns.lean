import QCLib.Foundations.StepRun
import QCLib.Gateway.StatementText

/-!
# One statement for a key

`NosqlToMysqlByKeys` takes a turn for each key, and the turns share the text of the statement. What
a turn should give to the server is said apart from it: a whole statement for the record under the
key, if there is one and all its fields have a column, and otherwise nothing (`dueStatement`).

A turn that begins with an empty text ends with one, so nothing is carried over. But
`UpdateRowMysql` leaves its loop with the text that it has so far, and what is not empty is sent:
for a record with a row in the table, one field without a column is enough (`keysClean_iff`).

`TurnClean` compares a turn with what is due; `TurnFine` is the condition, said about the record
that the store has under the key and the answer of the server to the count query. The equivalence is
shown for one turn (`turnClean_iff`) and carried along a list of keys by `guarded_iff`. That a fine
turn leaves an empty text behind is what lets the next one begin as the first did.
-/

open StepRun

namespace QCLib

open CStrings DBGateway

variable {σ : Type} (nosql : NoSqlStore σ) (mysql : MySql)

/-! ### What a turn should do -/

namespace TableObjectMap

/-- The key is that of a set, and is skipped. -/
def Skips (obj : TableObjectMap) (key : String) : Prop :=
  (strstr (cStr (String.ofList (key.toList.drop (obj.objectName ++ ":").length))).toList
    (cStr obj.keySeparator).toList).isSome

instance (obj : TableObjectMap) (key : String) : Decidable (obj.Skips key) :=
  inferInstanceAs (Decidable (_ = true))

end TableObjectMap

/-- The key in the table: what is behind the first colon, if anything is. -/
def tableKey (key : String) : Option String :=
  match key.toList.dropWhile (· ≠ ':') with
  | _ :: c :: cs => some (String.ofList (c :: cs))
  | _ => none

/-- The text of the count query. -/
def countText (obj : TableObjectMap) (tblKey : String) : String :=
  "select count(*) from " ++ obj.tableName ++ whereKey obj.tblKeyName tblKey

/-- The answer to the count query: the first cell of the result. -/
def countAnswer (g : DBGateway σ) (obj : TableObjectMap) (tblKey : String) : Option String := do
  let (_, data) ← getDataFromDb mysql g.db (countText obj tblKey)
  let (resultset, _) ← data
  let row ← resultset[0]?
  row[0]?

/-- The statement that is due for a record, when the server has counted its rows. -/
def statementFor (obj : TableObjectMap) (tblname count : String) (record : List KeyValue)
    (condition : String) : Option String :=
  if count = "1" then some (updateText obj tblname record condition)
  else if count = "0" then some (insertText obj tblname record)
  else none

/-- The statement that is due for a key. There is none for a set, for a key without a record or a
part for the table, if the query fails, the table is unknown, or a field has no column. -/
def dueStatement (g : DBGateway σ) (obj : TableObjectMap) (key : String) : Option String :=
  let record := nosql.getDataCacheAll g.nosql (cStr key)
  if obj.Skips key ∨ record = [] then none
  else do
    let tblKey ← tableKey key
    let count ← countAnswer mysql g obj tblKey
    let tableMap ← g.config.getTableObjectMapByTblname obj.tableName
    if AllMapped tableMap record then
      statementFor tableMap obj.tableName count record (whereKey obj.tblKeyName tblKey)
    else none

/-- The turn gives the server what is due, as a C string, and leaves an empty text behind. -/
def TurnClean (obj : TableObjectMap) (s : DBGateway σ × String) (key : String) : Prop :=
  ∃ g', keyTurn nosql mysql obj s key = some (g', "") ∧
    g'.sent.map cStr = s.1.sent.map cStr ++ (dueStatement nosql mysql s.1 obj key).toList

/-! ### When it does -/

/-- What is required of the answer to the count query. An error is allowed; otherwise there has to
be a first cell. If the table is known, then for `1` all fields have to be mapped, and in what a
statement is put together from there may be no `NUL`. -/
def AnswerFine (g : DBGateway σ) (obj : TableObjectMap) (record : List KeyValue)
    (tblKey : String) : Prop :=
  match getDataFromDb mysql g.db (countText obj tblKey) with
  | none => False
  | some (_, none) => True
  | some (_, some (resultset, _)) =>
    ∃ count, (resultset[0]?).bind (·[0]?) = some count ∧
      ∀ tableMap, g.config.getTableObjectMapByTblname obj.tableName = some tableMap →
        (count = "1" → AllMapped tableMap record ∧ NoNulIn tableMap obj.tableName record ∧
          NoNul obj.tblKeyName ∧ NoNul tblKey) ∧
        (count = "0" → AllMapped tableMap record → NoNulIn tableMap obj.tableName record)

/-- What is required of a key: it is not shorter than the prefix, and unless it is skipped or has no
record, it has a colon, and what is behind it is counted with a fine answer. -/
def TurnFine (obj : TableObjectMap) (s : DBGateway σ × String) (key : String) : Prop :=
  let record := nosql.getDataCacheAll s.1.nosql (cStr key)
  (obj.objectName ++ ":").length ≤ key.length ∧
    (¬ obj.Skips key → record ≠ [] → ':' ∈ key.toList ∧
      ∀ tblKey, tableKey key = some tblKey → AnswerFine mysql s.1 obj record tblKey)

variable {nosql mysql} {obj : TableObjectMap} {g : DBGateway σ} {key tblKey : String}
  {record : List KeyValue}

/-! ### A turn -/

/-- A key has no colon if and only if nothing is left of it behind its front. -/
theorem dropWhile_eq_nil_iff {cs : List Char} : cs.dropWhile (· ≠ ':') = [] ↔ ':' ∉ cs := by
  rw [List.dropWhile_eq_nil_iff]
  simp only [decide_eq_true_eq]
  exact ⟨fun h hmem ↦ h _ hmem rfl, fun h c hc heq ↦ h (heq ▸ hc)⟩

/-- The text that a turn has after its query. -/
def answerText (config : ConfigIndexMap) (tblname count : String) (record : List KeyValue)
    (condition : String) : String :=
  if count = "1" then updateRowMysql config tblname record "" condition
  else if count = "0" then insertRowToMysql config tblname record ""
  else ""

/-- What `ValuesToMysql` does, by the answer to the count query. -/
theorem valuesToMysql_of_some (h : tableKey key = some tblKey) (g : DBGateway σ)
    (record : List KeyValue) :
    g.valuesToMysql mysql obj.tblKeyName key obj.tableName record "" =
      match getDataFromDb mysql g.db (countText obj tblKey) with
      | none => none
      | some (db, none) => some ({ g with db }, "")
      | some (db, some (resultset, _)) =>
        ((resultset[0]?).bind (·[0]?)).map fun count ↦ ({ g with db },
          answerText g.config obj.tableName count record (whereKey obj.tblKeyName tblKey)) := by
  unfold tableKey at h
  split at h
  · next colon c cs hkey =>
    obtain rfl := Option.some.inj h
    have htext : "select count(*) from " ++ obj.tableName ++
        whereKey obj.tblKeyName (String.ofList (c :: cs)) =
          countText obj (String.ofList (c :: cs)) := rfl
    rw [valuesToMysql, hkey]
    dsimp only
    rw [htext]
    generalize getDataFromDb mysql g.db (countText obj (String.ofList (c :: cs))) = answer
    rcases answer with _ | ⟨db, _ | ⟨resultset, fieldinfo⟩⟩
    · rfl
    · rfl
    · show ((resultset[0]?).bind (·[0]?)).bind _ = ((resultset[0]?).bind (·[0]?)).map _
      cases (resultset[0]?).bind (·[0]?) <;> rfl
  · cases h

/-- Without a part for the table there is no query. A key without a colon is not even reported. -/
theorem valuesToMysql_of_none (h : tableKey key = none) (g : DBGateway σ)
    (record : List KeyValue) :
    g.valuesToMysql mysql obj.tblKeyName key obj.tableName record "" =
      if ':' ∈ key.toList then some (g, "") else none := by
  unfold tableKey at h
  rw [valuesToMysql]
  rcases hkey : key.toList.dropWhile (· ≠ ':') with _ | ⟨colon, _ | ⟨c, cs⟩⟩
  · rw [if_neg (dropWhile_eq_nil_iff.1 hkey)]
  · have hcolon : ':' ∈ key.toList := by
      by_contra hnot
      rw [dropWhile_eq_nil_iff.2 hnot] at hkey
      cases hkey
    rw [if_pos hcolon]
  · rw [hkey] at h
    cases h

section Answers

variable {config : ConfigIndexMap} {tableMap : TableObjectMap} {tblname count condition : String}

/-- A statement that was built is not the empty one that says that there is nothing to do. -/
theorem statementFor_ne_empty {statement : String}
    (h : statementFor tableMap tblname count record condition = some statement) :
    statement ≠ "" := by
  rintro rfl
  unfold statementFor at h
  split_ifs at h
  · have hlength := congrArg String.length (Option.some.inj h)
    simp [updateText, String.length_append] at hlength
  · have hlength := congrArg String.length (Option.some.inj h)
    simp [insertText, String.length_append] at hlength

theorem answerText_of_none (h : config.getTableObjectMapByTblname tblname = none) :
    answerText config tblname count record condition = "" := by
  rw [answerText, updateRowMysql_of_none h, insertRowToMysql_of_none h]
  split_ifs <;> rfl

/-- When all fields are mapped, the statement is the one that was built. -/
theorem answerText_of_mapped (h : config.getTableObjectMapByTblname tblname = some tableMap)
    (hmapped : AllMapped tableMap record) (hne : record ≠ []) :
    answerText config tblname count record condition =
      (statementFor tableMap tblname count record condition).getD "" := by
  rw [answerText, updateRowMysql_of_mapped h hmapped hne, insertRowToMysql_of_mapped h hmapped hne,
    statementFor]
  split_ifs <;> rfl

/-- Only `UpdateRowMysql` leaves something behind when it gives up. -/
theorem answerText_of_not_mapped (h : config.getTableObjectMapByTblname tblname = some tableMap)
    (hmapped : ¬ AllMapped tableMap record) :
    answerText config tblname count record condition = "" ↔ count ≠ "1" := by
  rw [answerText, insertRowToMysql_of_not_mapped h hmapped]
  split_ifs with hone hzero
  · exact iff_of_false (updateRowMysql_of_not_mapped h hmapped) (not_not_intro hone)
  · exact iff_of_true rfl hone
  · exact iff_of_true rfl hone

/-- Which statements are the same as a C string. -/
theorem noNul_statementFor :
    (∀ statement, statementFor tableMap tblname count record condition = some statement →
      NoNul statement) ↔
    (count = "1" → NoNulIn tableMap tblname record ∧ NoNul condition) ∧
      (count = "0" → NoNulIn tableMap tblname record) := by
  unfold statementFor
  split_ifs with hone hzero
  · simp [hone, noNul_updateText]
  · simp [hzero, noNul_insertText]
  · simp [hone, hzero]

/-- **The text is what is due** exactly if a partial `update` is impossible and a statement is not
cut. -/
theorem answerText_iff (config : ConfigIndexMap) (tblname count condition : String)
    (hne : record ≠ []) :
    (if answerText config tblname count record condition = "" then []
      else [cStr (answerText config tblname count record condition)]) =
        ((config.getTableObjectMapByTblname tblname).bind fun tableMap ↦
          if AllMapped tableMap record then
            statementFor tableMap tblname count record condition
          else none).toList ↔
      ∀ tableMap, config.getTableObjectMapByTblname tblname = some tableMap →
        (count = "1" → AllMapped tableMap record ∧ NoNulIn tableMap tblname record ∧
          NoNul condition) ∧
        (count = "0" → AllMapped tableMap record → NoNulIn tableMap tblname record) := by
  rcases h : config.getTableObjectMapByTblname tblname with _ | tableMap
  · rw [answerText_of_none h, if_pos rfl]
    simp
  · simp only [Option.bind_some, Option.some.injEq, forall_eq']
    by_cases hmapped : AllMapped tableMap record
    · rw [answerText_of_mapped h hmapped hne, if_pos hmapped]
      simp only [hmapped, true_and, true_imp_iff]
      rw [← noNul_statementFor]
      rcases hstatement : statementFor tableMap tblname count record condition with _ | statement
      · simp
      · have hfull := statementFor_ne_empty hstatement
        simp [hfull, cStr_eq_self]
    · rw [if_neg hmapped]
      have htext : answerText config tblname count record condition = "" ↔ count ≠ "1" :=
        answerText_of_not_mapped h hmapped
      simp [hmapped, htext]

end Answers

/-- A turn for a key that is not skipped and has a record. -/
theorem keyTurn_eq (hlength : (obj.objectName ++ ":").length ≤ key.length)
    (hskips : ¬ obj.Skips key) (hne : nosql.getDataCacheAll g.nosql (cStr key) ≠ []) :
    keyTurn nosql mysql obj (g, "") key =
      (g.valuesToMysql mysql obj.tblKeyName key obj.tableName
        (nosql.getDataCacheAll g.nosql (cStr key)) "").map fun p ↦
          (if p.2 = "" then p.1
            else { p.1 with
              db := setDataToDb mysql p.1.db p.2
              sent := p.1.sent ++ [p.2] }, "") := by
  unfold TableObjectMap.Skips at hskips
  rw [keyTurn, if_neg (Nat.not_lt.2 hlength)]
  dsimp only
  rw [if_neg hskips, if_neg hne]
  rcases g.valuesToMysql mysql obj.tblKeyName key obj.tableName
    (nosql.getDataCacheAll g.nosql (cStr key)) "" with _ | ⟨g', sqlstr⟩
  · rfl
  · rcases eq_or_ne sqlstr "" with rfl | hfull
    · rfl
    · simp [hfull]

/-- A turn for a key that belongs to another object, or has nothing stored under it, asks the server
nothing. -/
theorem keyTurn_of_idle (hlength : (obj.objectName ++ ":").length ≤ key.length)
    (h : obj.Skips key ∨ nosql.getDataCacheAll g.nosql (cStr key) = []) :
    keyTurn nosql mysql obj (g, "") key = some (g, "") := by
  unfold TableObjectMap.Skips at h
  rw [keyTurn, if_neg (Nat.not_lt.2 hlength)]
  dsimp only
  split_ifs with hskips hrecord
  · rfl
  · rfl
  · exact absurd h (not_or.2 ⟨hskips, hrecord⟩)

/-- A key that is skipped, or has nothing stored under it, gets no statement. -/
theorem dueStatement_of_idle (h : obj.Skips key ∨ nosql.getDataCacheAll g.nosql (cStr key) = []) :
    dueStatement nosql mysql g obj key = none := by
  unfold dueStatement
  dsimp only
  rw [if_pos h]

theorem dueStatement_eq (hskips : ¬ obj.Skips key)
    (hne : nosql.getDataCacheAll g.nosql (cStr key) ≠ []) :
    dueStatement nosql mysql g obj key = (tableKey key).bind fun tblKey ↦
      (countAnswer mysql g obj tblKey).bind fun count ↦
        (g.config.getTableObjectMapByTblname obj.tableName).bind fun tableMap ↦
          if AllMapped tableMap (nosql.getDataCacheAll g.nosql (cStr key)) then
            statementFor tableMap obj.tableName count (nosql.getDataCacheAll g.nosql (cStr key))
              (whereKey obj.tblKeyName tblKey)
          else none := by
  unfold dueStatement
  dsimp only
  rw [if_neg (not_or.2 ⟨hskips, hne⟩)]
  rfl

/-- **A turn is clean exactly if it is fine**: the server gets what is due, and no text is left
behind, if and only if the answer to the count query is one that the code can go on with. -/
theorem turnClean_iff :
    TurnClean nosql mysql obj (g, "") key ↔ TurnFine nosql mysql obj (g, "") key := by
  by_cases hlength : (obj.objectName ++ ":").length ≤ key.length
  swap
  · refine iff_of_false ?_ fun h ↦ hlength h.1
    rintro ⟨g', hturn, -⟩
    rw [keyTurn, if_pos (Nat.lt_of_not_le hlength)] at hturn
    cases hturn
  by_cases hidle : obj.Skips key ∨ nosql.getDataCacheAll g.nosql (cStr key) = []
  · refine iff_of_true ⟨g, keyTurn_of_idle hlength hidle, ?_⟩
      ⟨hlength, fun hskips hrecord ↦ absurd hidle (not_or.2 ⟨hskips, hrecord⟩)⟩
    rw [dueStatement_of_idle hidle]
    exact (List.append_nil _).symm
  obtain ⟨hskips, hrecord⟩ := not_or.1 hidle
  simp only [TurnClean, TurnFine, keyTurn_eq hlength hskips hrecord, dueStatement_eq hskips hrecord,
    hlength, hskips, true_and, not_false_eq_true, ne_eq, true_imp_iff]
  generalize nosql.getDataCacheAll g.nosql (cStr key) = record at hrecord
  rcases htblKey : tableKey key with _ | tblKey
  · rw [valuesToMysql_of_none htblKey]
    by_cases hcolon : ':' ∈ key.toList <;> simp [hcolon, hrecord]
  · have hcolon : ':' ∈ key.toList := by
      by_contra hnot
      rw [tableKey, dropWhile_eq_nil_iff.2 hnot] at htblKey
      cases htblKey
    rw [valuesToMysql_of_some htblKey]
    simp only [hcolon, hrecord, true_and, Option.some.injEq, forall_eq', Option.bind_some,
      AnswerFine, countAnswer]
    rcases getDataFromDb mysql g.db (countText obj tblKey) with
      _ | ⟨db, _ | ⟨resultset, fieldinfo⟩⟩
    · simp
    · simp
    · simp only [Option.bind_eq_bind, Option.bind_some]
      rcases (resultset[0]?).bind (·[0]?) with _ | count
      · simp
      · have hanswer :=
          answerText_iff g.config obj.tableName count (whereKey obj.tblKeyName tblKey) hrecord
        simp only [Option.bind_some, Option.map_some, Option.some.injEq, Prod.mk.injEq, and_true,
          exists_eq_left', not_false_eq_true, true_imp_iff]
        rw [← noNul_whereKey, ← hanswer]
        generalize answerText g.config obj.tableName count record (whereKey obj.tblKeyName tblKey) =
          text
        split_ifs with hempty
        · rw [← List.append_cancel_left_eq (g.sent.map cStr) [], List.append_nil]
        · rw [List.map_append, List.append_cancel_left_eq]
          rfl

/-! ### All keys -/

/-- **Every turn is clean** exactly if every turn is fine, whatever the keys and their order. -/
theorem keysClean_iff (nosql : NoSqlStore σ) (mysql : MySql) (obj : TableObjectMap)
    (g : DBGateway σ) (keys : List String) :
    Guarded (keyTurn nosql mysql obj) (TurnClean nosql mysql obj) (g, "") keys ↔
      Guarded (keyTurn nosql mysql obj) (TurnFine nosql mysql obj) (g, "") keys := by
  have hiff : ∀ (s : DBGateway σ × String) key, s.2 = "" → True →
      (TurnClean nosql mysql obj s key ↔ TurnFine nosql mysql obj s key) := by
    rintro ⟨g, _⟩ key rfl -
    exact turnClean_iff
  -- Before every turn the text is empty, since a clean turn leaves it so.
  have hstep : ∀ (s : DBGateway σ × String) key s', s.2 = "" → True →
      TurnClean nosql mysql obj s key → keyTurn nosql mysql obj s key = some s' → s'.2 = "" := by
    rintro s key s' - - ⟨g', hturn, -⟩ hs'
    rw [hturn] at hs'
    exact congrArg Prod.snd (Option.some.inj hs').symm
  exact guarded_iff hiff hstep rfl (guarded_of_forall fun _ _ ↦ trivial)

/-- A table with one column. -/
def oneColumn : TableObjectMap where
  objectName := "o"
  tableName := "t"
  tblKeyName := "k"
  keySeparator := ":"
  objectTableMap := (∅ : Std.ExtTreeMap String String).insert "f" "k"
  tableObjectMap := (∅ : Std.ExtTreeMap String String).insert "k" "f"
  bindItems := ∅

/-- The gateway for it. -/
def oneColumnGateway : DBGateway Unit where
  config := {
    configs := [oneColumn]
    tableMap := (∅ : Std.ExtTreeMap String Nat).insert "t" 0
    objectMap := (∅ : Std.ExtTreeMap String Nat).insert "o" 0 }
  db := fun _ ↦ none
  nosql := ()

theorem oneColumn_found :
    oneColumnGateway.config.getTableObjectMapByTblname "t" = some oneColumn := by
  simp [oneColumnGateway, ConfigIndexMap.getTableObjectMapByTblname]

/-- Every key has a record, in which the second field has no column. -/
def twoFields : NoSqlStore Unit where
  setDataCache _ _ _ := ()
  getDataCacheAll _ _ := [⟨"f", "1"⟩, ⟨"g", "2"⟩]
  addSetCache _ _ _ := ()
  getSetCache _ _ := []
  getAllKeys _ _ := ["o:1"]

/-- A server with one row for the key. Any other text is an error. -/
def oneRow : MySql where
  query db text :=
    if text = "select count(*) from t where k = '1';" then
      some (db, some ⟨[Sql.countColumn], [[some "1"]]⟩)
    else none

/-- For this key an `update` without its end is sent. -/
theorem not_keysClean_unmapped :
    ¬ Guarded (keyTurn twoFields oneRow oneColumn) (TurnClean twoFields oneRow oneColumn)
      (oneColumnGateway, "") ["o:1"] := by
  intro h
  obtain ⟨-, hfine⟩ := turnClean_iff.1 (guarded_cons.1 h).1
  have hskips : ¬ oneColumn.Skips "o:1" := by decide
  obtain ⟨-, hanswer⟩ := hfine hskips (List.cons_ne_nil _ _)
  have hcount : getDataFromDb oneRow oneColumnGateway.db (countText oneColumn "1") =
      some (oneColumnGateway.db, some ([["1"]], [.ofColumn Sql.countColumn])) := by
    have htext : cStr (countText oneColumn "1") = "select count(*) from t where k = '1';" := by
      decide
    have hquery : oneRow.query oneColumnGateway.db (cStr (countText oneColumn "1")) =
        some (oneColumnGateway.db, some ⟨[Sql.countColumn], [[some "1"]]⟩) := by
      rw [htext]
      simp only [oneRow, if_true]
    rw [getDataFromDb, hquery]
    rfl
  have hfine := hanswer "1" (by decide)
  rw [AnswerFine, hcount] at hfine
  obtain ⟨count, hone, hmapped⟩ := hfine
  have hg : oneColumn.getTblFieldName "g" = "" := by
    simp [oneColumn, TableObjectMap.getTblFieldName]
  exact ((hmapped oneColumn oneColumn_found).1 (Option.some.inj hone).symm).1 ⟨"g", "2"⟩
    (List.mem_cons_of_mem _ List.mem_cons_self) hg

end QCLib
