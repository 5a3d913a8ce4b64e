import QCLib.Foundations.SqlTable
import QCLib.Gateway.TableObjectMap
import QCLib.Store.NoSqlStore

/-!
# The database gateway

`DBGateway` of `db_gateway.cpp`: `MysqlToRedis` copies every configured table into the key-value
store, and `RedisToMysql` writes what is there back, one statement for each record.
`database_mysql.cpp` is what it knows of MySQL.

The server is a parameter. It is relied on to execute the queries that it can read, and the updates
that write back what they find (`MySql.Executes`): that it would take any text for any column is not
asked for. A step that would read from nowhere, or throw an exception that nobody catches,
is `none`.

The texts that C functions take are cut at their first NUL (`cStr`) exactly where the source passes
`c_str()`: in the keys of the store and in the statements of MySQL. Texts that are passed as strings
with their length are not cut.

A turn over the keys carries the text of the statement along, because the source declares it outside
the loop; and the statements that were sent are kept beside the gateway (`sent`), with the database
as the server has left it. Timers and the log are left out.
-/

namespace QCLib

open CStrings

/-! ### The server -/

/-- A MySQL server: what `mysql_query` makes of a text, with the result set if there is one. `none`
is an error. -/
structure MySql where
  query : Sql.Database → String → Option (Sql.Database × Option Sql.Resultset)

/-- A query, or an `update` that writes to a row that it finds, column by column, what this row has
already, an empty text for a `NULL`, or the text that stands for binary data. -/
def TakesBack (db : Sql.Database) : Sql.Statement → Prop
  | .selectAll _ | .selectCount _ _ _ => True
  | .update table assignments key value => ∃ t, db table = some t ∧ ∃ row ∈ t.rows,
      Sql.holds t.columns key value row ∧ ∀ a ∈ assignments,
        ∃ x, Sql.cell t.columns row a.1 = some x ∧ (a.2 = x.getD "" ∨ a.2 = "default_bin_data")
  | .insert _ _ _ => False

/-- The server executes such statements when they can be read, and refuses a text that ends in a
literal. -/
structure MySql.Executes (mysql : MySql) (reserved : String → Bool) : Prop where
  executes : ∀ db text statement, Sql.read reserved text = some statement →
    TakesBack db statement → mysql.query db text = Sql.execute db statement
  refuses : ∀ db text, Sql.EndsInLiteral text.toList → mysql.query db text = none

/-- A server that executes what it can read, and nothing else. -/
def MySql.reader (reserved : String → Bool) : MySql where
  query db text := (Sql.read reserved text).bind (Sql.execute db)

/-- The reader of the examples executes the statements, so the assumption about the server can be
met. -/
theorem MySql.reader_executes (reserved : String → Bool) :
    (MySql.reader reserved).Executes reserved where
  executes db text statement h _ := by
    show (Sql.read reserved text).bind (Sql.execute db) = _
    rw [h, Option.bind_some]
  refuses db text h := by
    have hread : Sql.read reserved text = none := by simp [Sql.read, h.1]
    show (Sql.read reserved text).bind (Sql.execute db) = none
    rw [hread, Option.bind_none]

/-! ### `DBSqlBase` -/

inductive FieldType where
  | interger
  | floats
  | strings
  | binary
  deriving DecidableEq, Repr

/-- `FIELD_FLAG_PRIMARY`. -/
def fieldFlagPrimary : UInt32 := 1

/-- `FIELD_FLAG_BINARY`. -/
def fieldFlagBinary : UInt32 := 2

/-- `BINARY_FLAG`. -/
def binaryFlag : UInt32 := 128

/-- `FieldTypeMap`, over the types that MySQL reports. -/
def fieldTypeMap (t : UInt32) : FieldType :=
  if t = 4 ∨ t = 5 then .floats
  else if t = 249 ∨ t = 250 ∨ t = 251 ∨ t = 252 then .strings
  else if t = 253 ∨ t = 254 then .strings
  else if t = 16 then .binary
  else .interger

/-- `FieldFlagMap`: the flags of MySQL that the gateway looks at, under its own numbers. -/
def fieldFlagMap (t : UInt32) : UInt32 :=
  (if t &&& Sql.priKeyFlag ≠ 0 then fieldFlagPrimary else 0) |||
    if t &&& binaryFlag ≠ 0 then fieldFlagBinary else 0

/-- `FieldInfo`, what the gateway knows of a column. -/
structure FieldInfo where
  fieldName : String
  fieldType : FieldType
  fieldFlag : UInt32
  deriving DecidableEq, Repr

/-- What `GetDataFromDb` keeps of a column. -/
def FieldInfo.ofColumn (c : Sql.Column) : FieldInfo where
  fieldName := c.name
  fieldType := fieldTypeMap c.type
  fieldFlag := fieldFlagMap c.flags

/-- `DBROW`: the texts of a row. A `NULL` has become the empty text. -/
abbrev DBRow := List String

/-- `GetDataFromDb`: the rows, in which `NULL` is an empty text, and the columns; nothing after an
error. A statement without a result set has none to read from. -/
def getDataFromDb (mysql : MySql) (db : Sql.Database) (sql : String) :
    Option (Sql.Database × Option (List DBRow × List FieldInfo)) :=
  match mysql.query db (cStr sql) with
  | none => some (db, none)
  | some (_, none) => none
  | some (db, some result) =>
    some (db, some (result.rows.map fun row ↦ row.map fun cell ↦ cell.getD "",
      result.columns.map FieldInfo.ofColumn))

/-- `SetDataToDb`. An error is only logged. -/
def setDataToDb (mysql : MySql) (db : Sql.Database) (sql : String) : Sql.Database :=
  match mysql.query db (cStr sql) with
  | none => db
  | some (db, _) => db

/-! ### The gateway -/

/-- `DBGateway`, with the tables, the store, and the statements given to `SetDataToDb` so far. -/
structure DBGateway (σ : Type) where
  config : ConfigIndexMap
  db : Sql.Database
  nosql : σ
  sent : List String := []

/-- `BindItemInfo`, collected from a row: the text of its key, and the values of the columns that
have sets. -/
structure BindItemInfo where
  key : String := ""
  bindItems : Std.ExtTreeMap String String := ∅

/-- What the loop of `MysqlRowDataToNosql` collects. -/
structure RowData where
  setValue : List KeyValue := []
  setTableKey : String
  bindItems : BindItemInfo := {}

/-- The value that is stored for a text. -/
def redisValue (info : FieldInfo) (text : String) : String :=
  match info.fieldType with
  | .interger | .floats => text
  | .binary | .strings =>
    if info.fieldFlag &&& fieldFlagBinary ≠ 0 then "default_bin_data" else text

/-- Why `Preprocess` stops. -/
inductive PreprocessError where
  | noDataProc
  | dbLogic
  | rdMapCfg
  deriving DecidableEq, Repr

/-- `Preprocess`: the names of the fields. -/
def preprocess (config : ConfigIndexMap) (tblname : String) (resultset : List DBRow)
    (fieldinfo : List FieldInfo) : Except PreprocessError (List String) :=
  match resultset with
  | [] => .error .noDataProc
  | row :: _ =>
    if row.length ≠ fieldinfo.length then .error .dbLogic
    else
      match config.getTableObjectMapByTblname tblname with
      | none => .error .rdMapCfg
      | some obj =>
        let names := fieldinfo.map fun info ↦ obj.getObjFieldName info.fieldName
        if "" ∈ names then .error .rdMapCfg else .ok names

/-- One turn of the loop of `MysqlRowDataToNosql`. -/
def rowTurn (obj : TableObjectMap) (data : RowData) (column : FieldInfo × String × String) :
    RowData :=
  let (info, field, text) := column
  let value := redisValue info text
  { setValue := data.setValue ++ [⟨field, value⟩]
    setTableKey :=
      if info.fieldFlag = fieldFlagPrimary then data.setTableKey ++ value else data.setTableKey
    bindItems :=
      { key := if info.fieldFlag = fieldFlagPrimary then value else data.bindItems.key
        bindItems :=
          if info.fieldName ∈ obj.bindItems then
            data.bindItems.bindItems.insert info.fieldName value
          else data.bindItems.bindItems } }

variable {σ : Type} (nosql : NoSqlStore σ)

/-- `SetBindItemsToNosql`: the row's key becomes a member of the set of each item and its value. -/
def setBindItemsToNosql (db : σ) (items : BindItemInfo) (objname sep : String) : σ :=
  items.bindItems.toList.foldl
    (fun db item ↦
      nosql.addSetCache db (cStr (objname ++ sep ++ item.1 ++ sep ++ item.2)) [items.key])
    db

namespace DBGateway

variable (mysql : MySql)

/-! ### Loading -/

/-- `MysqlRowDataToNosql`, with the lists that `Preprocess` has found to be of one length. -/
def mysqlRowDataToNosql (g : DBGateway σ) (tblname : String) (row : DBRow)
    (objFieldNames : List String) (fieldinfo : List FieldInfo) : Option (DBGateway σ) :=
  if row.length ≠ objFieldNames.length then some g
  else
    (g.config.getTableObjectMapByTblname tblname).map fun obj ↦
      let data := (fieldinfo.zip (objFieldNames.zip row)).foldl (rowTurn obj)
        { setTableKey := obj.objectName ++ obj.keySeparator }
      let db := setBindItemsToNosql nosql g.nosql data.bindItems obj.objectName obj.keySeparator
      { g with nosql := nosql.setDataCache db (cStr data.setTableKey) data.setValue }

/-- `MysqlToNoSql`. What it returns is not looked at. -/
def mysqlToNoSql (g : DBGateway σ) (tblname : String) : Option (DBGateway σ) := do
  let (db, data) ← getDataFromDb mysql g.db ("select * from " ++ tblname ++ ";")
  let g := { g with db }
  let (resultset, fieldinfo) := data.getD ([], [])
  match preprocess g.config tblname resultset fieldinfo with
  | .error _ => return g
  | .ok objFieldNames =>
    resultset.foldlM (fun g row ↦ g.mysqlRowDataToNosql nosql tblname row objFieldNames fieldinfo) g

/-- `MysqlToRedis`, at the start of the gateway: all tables, in the order of the configuration. -/
def mysqlToRedis (g : DBGateway σ) : Option (DBGateway σ) :=
  g.config.configs.foldlM (fun g obj ↦ g.mysqlToNoSql nosql mysql obj.tableName) g

/-! ### Saving -/

/-- The loop of `UpdateRowMysql`: the text, and whether the loop was left before its end. -/
def updateLoop (obj : TableObjectMap) : List KeyValue → String → String × Bool
  | [], sqlstr => (sqlstr, false)
  | kv :: rest, sqlstr =>
    let fieldName := obj.getTblFieldName kv.field
    if fieldName = "" then (sqlstr, true)
    else updateLoop obj rest (sqlstr ++ fieldName ++ "='" ++ kv.value ++ "',")

/-- `UpdateRowMysql`: the new `sqlstr`. When a field is not mapped, the function returns with the
text that it has built so far. -/
def updateRowMysql (config : ConfigIndexMap) (tblname : String) (getValue : List KeyValue)
    (sqlstr condition : String) : String :=
  match config.getTableObjectMapByTblname tblname with
  | none => sqlstr
  | some obj =>
    match updateLoop obj getValue ("update " ++ tblname ++ " set ") with
    | (sqlstr, true) => sqlstr
    | (sqlstr, false) => String.ofList sqlstr.toList.dropLast ++ " " ++ condition

/-- The loop of `InsertRowToMysql`: the texts `names` and `values`, unless it was left before its
end. -/
def insertLoop (obj : TableObjectMap) : List KeyValue → String → String → Option (String × String)
  | [], names, values => some (names, values)
  | kv :: rest, names, values =>
    let fieldName := obj.getTblFieldName kv.field
    if fieldName = "" then none
    else insertLoop obj rest (names ++ fieldName ++ ",") (values ++ "'" ++ kv.value ++ "'" ++ ",")

/-- `InsertRowToMysql`: the new `sqlstr`, which stays as it was when a field is not mapped. -/
def insertRowToMysql (config : ConfigIndexMap) (tblname : String) (getValue : List KeyValue)
    (sqlstr : String) : String :=
  match config.getTableObjectMapByTblname tblname with
  | none => sqlstr
  | some obj =>
    match insertLoop obj getValue (tblname ++ "(") "values(" with
    | none => sqlstr
    | some (names, values) =>
      let names := if getValue = [] then names else String.ofList names.toList.dropLast
      let values := if getValue = [] then values else String.ofList values.toList.dropLast
      "insert into " ++ (names ++ ")") ++ " " ++ (values ++ ")") ++ ";"

/-- The `condition` of `ValuesToMysql`. -/
def whereKey (keyname tblKey : String) : String := " where " ++ keyname ++ " = '" ++ tblKey ++ "';"

/-- `ValuesToMysql`: the gateway, and the new `sqlstr`. -/
def valuesToMysql (g : DBGateway σ) (keyname rediskey tblname : String) (getValue : List KeyValue)
    (sqlstr : String) : Option (DBGateway σ × String) :=
  match rediskey.toList.dropWhile (· ≠ ':') with
  -- The message for a key without a colon has a `%s` and no argument.
  | [] => none
  | [_] => some (g, sqlstr)
  | _ :: tblKey => do
    let condition := whereKey keyname (String.ofList tblKey)
    match ← getDataFromDb mysql g.db ("select count(*) from " ++ tblname ++ condition) with
    | (db, none) => return ({ g with db }, sqlstr)
    | (db, some (resultset, _)) =>
      let count ← (resultset[0]?).bind (·[0]?)
      let sqlstr :=
        if count = "1" then updateRowMysql g.config tblname getValue sqlstr condition
        else if count = "0" then insertRowToMysql g.config tblname getValue sqlstr
        else sqlstr
      return ({ g with db }, sqlstr)

/-- One turn of the loop of `NosqlToMysqlByKeys`, with the `sqlstr` that the turns share. -/
def keyTurn (obj : TableObjectMap) (s : DBGateway σ × String) (key : String) :
    Option (DBGateway σ × String) :=
  let skipped := (obj.objectName ++ ":").length
  if key.length < skipped then none
  else if (strstr ((cStr (String.ofList (key.toList.drop skipped))).toList)
      (cStr obj.keySeparator).toList).isSome then some s
  else
    let getValue := nosql.getDataCacheAll s.1.nosql (cStr key)
    if getValue = [] then some s
    else do
      let (g, sqlstr) ← s.1.valuesToMysql mysql obj.tblKeyName key obj.tableName getValue s.2
      if sqlstr = "" then return (g, sqlstr)
      else return ({ g with db := setDataToDb mysql g.db sqlstr, sent := g.sent ++ [sqlstr] }, "")

/-- `NosqlToMysqlByKeys`. The text of the statement is declared outside the loop, so each turn
begins with what the one before it has left. -/
def nosqlToMysqlByKeys (g : DBGateway σ) (keys : List String) (obj : TableObjectMap) :
    Option (DBGateway σ) :=
  (keys.foldlM (keyTurn nosql mysql obj) (g, "")).map Prod.fst

/-- `RedisToMysql`: for each object, all keys that begin with its name. -/
def redisToMysql (g : DBGateway σ) : Option (DBGateway σ) :=
  g.config.configs.foldlM
    (fun g obj ↦
      g.nosqlToMysqlByKeys nosql mysql
        (nosql.getAllKeys g.nosql (cStr (obj.objectName ++ ":*"))) obj)
    g

/-- `db_gateway_run` up to the end of the first save. -/
def firstRound (g : DBGateway σ) : Option (DBGateway σ) :=
  (g.mysqlToRedis nosql mysql).bind fun g ↦ g.redisToMysql nosql mysql

end DBGateway

end QCLib
