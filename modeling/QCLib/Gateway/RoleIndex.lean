import QCLib.Gateway.Loading
import QCLib.Logic.PreLogin

/-!
# The role index

The gateway and the logic server both keep, for each user, the set of the user's roles. The gateway
writes it under the name of the column, `player_data:user_id:`, and the logic server looks for it
under the name of the member, `player_data:m_user_id:` (`bindKey_ne_userKey`). So after a load every
user is without roles (`getRoleIds_eq_nil`).

The object and its items are those of `table2redis.xml`, so the results are about the configuration
in the repository; the tables, the store and the server are any that meet what is relied on.
`rolesAgree_iff` is an equivalence whose right side says that the table has no role at all.
-/

namespace QCLib

open CStrings Sql

/-! ### Agreement -/

/-- The values of a row, under the names that the logic server has for them. -/
def rowValues (columns : List Column) (row : Row) : List KeyValue :=
  (table2redis.filter fun element ↦ element.tName = "player_data_table").flatMap fun element ↦
    element.fields.filterMap fun field ↦
      ((cell columns row field.1).getD none).map fun text ↦ ⟨field.2, text⟩

/-- The row is a role with an id, of a user. -/
def IsRoleOf (columns : List Column) (row : Row) (userId : UserId) (id : String) : Prop :=
  cell columns row "user_id" = some (some (toString userId.toInt)) ∧
    cell columns row "object_id" = some (some id)

instance (columns : List Column) (row : Row) (userId : UserId) (id : String) :
    Decidable (IsRoleOf columns row userId id) := inferInstanceAs (Decidable (_ ∧ _))

/-- What the logic server finds in the store are the roles of a table. -/
structure RolesAgree {σ : Type} (nosql : NoSqlStore σ) (db : σ) (t : Table) : Prop where
  ids : ∀ userId id, id ∈ getRoleIds nosql db userId ↔
    ∃ row ∈ t.rows, IsRoleOf t.columns row userId id
  infos : ∀ row ∈ t.rows, ∀ userId id, IsRoleOf t.columns row userId id →
    getPreLoginPlayerInfo nosql db id {} =
      (PlayerDataPreLogin.mapToStruct {} (rowValues t.columns row), true)

/-! ### The keys -/

variable {config : ConfigIndexMap} {obj : TableObjectMap}

/-- The bind items of the mapping are those of `player_data_table`. -/
theorem bindItems_table2redis (hconfig : initConfig table2redis = some config)
    (hobj : obj ∈ config.configs) {item : String} (hitem : item ∈ obj.bindItems) :
    obj.objectName = "player_data" ∧ obj.keySeparator = ":" ∧
      (item = "user_id" ∨ item = "player_name") := by
  obtain ⟨element, helement, hdescribes⟩ := exists_describes hconfig hobj
  have hnone : ∀ items, getBindItems ":" none = some items → item ∉ items := by
    rintro items hitems
    obtain rfl := Option.some.inj hitems
    exact Std.ExtTreeSet.not_mem_empty
  have hpair : "user_id:player_name" = "user_id" ++ ":" ++ "player_name" := by decide
  have hitems := hdescribes.bindItems
  simp only [table2redis, List.mem_cons, List.not_mem_nil, or_false] at helement
  rcases helement with rfl | rfl | rfl | rfl
  · exact absurd hitem (hnone _ hitems)
  · exact absurd hitem (hnone _ hitems)
  · refine ⟨hdescribes.objectName, hdescribes.keySeparator, ?_⟩
    dsimp only at hitems
    rw [hpair, getBindItems_pair (by decide) (by decide) (by decide)] at hitems
    rw [← Option.some.inj hitems] at hitem
    simp only [Std.ExtTreeSet.mem_insert, Std.compare_eq_iff_eq, Std.ExtTreeSet.not_mem_empty,
      or_false] at hitem
    exact hitem.symm.imp Eq.symm Eq.symm
  · exact absurd hitem (hnone _ hitems)

/-- **The gateway writes no set that the logic server would read.** -/
theorem bindKey_ne_userKey (hconfig : initConfig table2redis = some config)
    (hobj : obj ∈ config.configs) {item : String} (hitem : item ∈ obj.bindItems) (value : String)
    (userId : UserId) : obj.bindKey item value ≠ userKey userId := by
  obtain ⟨hname, hsep, hitem⟩ := bindItems_table2redis hconfig hobj hitem
  rw [TableObjectMap.bindKey, hname, hsep]
  intro h
  have hchars := congrArg String.toList h
  rcases hitem with rfl | rfl
  · rw [cStr_append (by decide)] at hchars
    simp [userKey, kPlayerTable, String.toList_append] at hchars
  · rw [cStr_append (by decide)] at hchars
    simp [userKey, kPlayerTable, String.toList_append] at hchars

/-! ### After a load -/

variable {σ : Type} {nosql : NoSqlStore σ} {mysql : MySql} {reserved : String → Bool}
  {contents : σ → String → RedisEntry} {g : DBGateway σ} {t : Table}

/-- Loading the tables of the mapping file is defined, and leaves the database as it is. -/
theorem mysqlToRedis_table2redis (hmysql : mysql.Executes reserved)
    (hconfig : initConfig table2redis = some g.config)
    (hnames : ∀ element ∈ table2redis, reserved element.tName = false) :
    g.mysqlToRedis nosql mysql =
      some { g with nosql := loadTables nosql g.config.configs g.db g.nosql } := by
  refine mysqlToRedis_eq nosql hmysql (fun obj hobj ↦ ?_) fun obj hobj ↦ ?_
  · obtain ⟨element, helement, hdescribes⟩ := exists_describes hconfig hobj
    have hword : ∀ element ∈ table2redis, IsWord element.tName := by decide
    rw [hdescribes.tableName]
    exact ⟨hword element helement, hnames element helement⟩
  · exact getTableObjectMapByTblname_eq hconfig (by decide) hobj

/-- **Every user is without roles after the load**, because the sets are stored under keys that the
logic server does not ask for. -/
theorem getRoleIds_eq_nil (hnosql : nosql.Faithful contents)
    (hconfig : initConfig table2redis = some g.config)
    (hempty : ∀ key, contents g.nosql key = .absent) (userId : UserId) :
    getRoleIds nosql (loadTables nosql g.config.configs g.db g.nosql) userId = [] := by
  refine List.eq_nil_iff_forall_not_mem.2 fun id hid ↦ ?_
  rw [mem_getRoleIds hnosql, members_loadTables nosql hnosql
    (fun obj hobj item hitem value ↦ bindKey_ne_userKey hconfig hobj hitem value userId),
    hempty] at hid
  exact hid

/-- One role in the table is enough for the two to disagree. -/
theorem exists_not_rolesAgree (hmysql : mysql.Executes reserved) (hnosql : nosql.Faithful contents)
    (hconfig : initConfig table2redis = some g.config)
    (hnames : ∀ element ∈ table2redis, reserved element.tName = false)
    (hempty : ∀ key, contents g.nosql key = .absent) (ht : g.db "player_data_table" = some t)
    {row : Row} (hrow : row ∈ t.rows) {userId : UserId} {id : String}
    (hrole : IsRoleOf t.columns row userId id) :
    ∃ g', g.mysqlToRedis nosql mysql = some g' ∧ g'.db "player_data_table" = some t ∧
      getRoleIds nosql g'.nosql userId = [] ∧ ¬ RolesAgree nosql g'.nosql t := by
  have hnil := getRoleIds_eq_nil hnosql hconfig hempty userId
  refine ⟨_, mysqlToRedis_table2redis hmysql hconfig hnames, ht, hnil, fun hagree ↦ ?_⟩
  have hid := (hagree.ids userId id).2 ⟨row, hrow, hrole⟩
  rw [hnil] at hid
  exact List.not_mem_nil hid

/-- **When the gateway and the logic server agree**: as long as the table holds no role of any
user. -/
theorem rolesAgree_iff (hmysql : mysql.Executes reserved) (hnosql : nosql.Faithful contents)
    (hconfig : initConfig table2redis = some g.config)
    (hnames : ∀ element ∈ table2redis, reserved element.tName = false)
    (hempty : ∀ key, contents g.nosql key = .absent) :
    ∃ g', g.mysqlToRedis nosql mysql = some g' ∧ g'.db = g.db ∧
      ∀ t, g.db "player_data_table" = some t → (RolesAgree nosql g'.nosql t ↔
        ∀ row ∈ t.rows, ∀ userId id, ¬ IsRoleOf t.columns row userId id) := by
  refine ⟨_, mysqlToRedis_table2redis hmysql hconfig hnames, rfl, fun t _ ↦ ⟨fun hagree row hrow
    userId id hrole ↦ ?_, fun hnone ↦ ⟨fun userId id ↦ ?_, fun row hrow userId id hrole ↦ ?_⟩⟩⟩
  · have hid := (hagree.ids userId id).2 ⟨row, hrow, hrole⟩
    rw [getRoleIds_eq_nil hnosql hconfig hempty] at hid
    exact List.not_mem_nil hid
  · rw [getRoleIds_eq_nil hnosql hconfig hempty]
    refine iff_of_false List.not_mem_nil ?_
    rintro ⟨row, hrow, hrole⟩
    exact hnone row hrow userId id hrole
  · exact absurd hrole (hnone row hrow userId id)

/-! ### One role -/

/-- A table with one role, of the user `7`. -/
def oneRole : Table where
  columns := [{ name := "object_id", type := 8, flags := 3 },
    { name := "user_id", type := 8, flags := 1 },
    { name := "player_name", type := 253, flags := 1 },
    { name := "playerLevel", type := 3, flags := 1 },
    { name := "playerJob", type := 3, flags := 33 },
    { name := "playerCountry", type := 3, flags := 33 },
    { name := "lastLoginTime", type := 3, flags := 33 }]
  rows := [[some "1", some "7", some "a", some "5", some "2", some "1", some "0"]]
  names_nodup := by decide
  valid := by decide

/-- A gateway that finds it in the database, and nothing in the store. -/
def oneRoleGateway : DBGateway (Std.ExtTreeMap String RedisValue) where
  config := (initConfig table2redis).getD {}
  db := fun name ↦ if name = "player_data_table" then some oneRole else none
  nosql := ∅

/-- Some words that are reserved. -/
def reservedWords (name : String) : Bool :=
  name ∈ ["select", "from", "where", "update", "set", "insert", "into", "values"]

/-- The configuration of the example is the one in the repository. -/
theorem oneRoleGateway_config : initConfig table2redis = some oneRoleGateway.config := by
  have hpair : "user_id:player_name" = "user_id" ++ ":" ++ "player_name" := by decide
  obtain ⟨config, hconfig⟩ : ∃ config, initConfig table2redis = some config := by
    refine exists_initConfig fun element helement ↦ ?_
    simp only [table2redis, List.mem_cons, List.not_mem_nil, or_false] at helement
    rcases helement with rfl | rfl | rfl | rfl
    · exact ⟨_, rfl⟩
    · exact ⟨_, rfl⟩
    · dsimp only
      rw [hpair, getBindItems_pair (by decide) (by decide) (by decide)]
      exact ⟨_, rfl⟩
    · exact ⟨_, rfl⟩
  rw [oneRoleGateway, hconfig, Option.getD_some]

theorem oneRoleGateway_nosql (key : String) :
    inMemoryContents oneRoleGateway.nosql key = .absent :=
  inMemoryContents_of_none Std.ExtTreeMap.getElem?_empty

/-- One role, and the key that its set is stored under. -/
theorem rolesAgree_oneRole :
    ∃ g', oneRoleGateway.mysqlToRedis NoSqlStore.inMemory (MySql.reader reservedWords) = some g' ∧
      g'.db = oneRoleGateway.db ∧
        ∀ t, oneRoleGateway.db "player_data_table" = some t →
          (RolesAgree NoSqlStore.inMemory g'.nosql t ↔
            ∀ row ∈ t.rows, ∀ userId id, ¬ IsRoleOf t.columns row userId id) :=
  rolesAgree_iff (MySql.reader_executes reservedWords) NoSqlStore.inMemory_faithful
    oneRoleGateway_config (by decide) oneRoleGateway_nosql

theorem oneRoleGateway_db : oneRoleGateway.db "player_data_table" = some oneRole := by
  simp only [oneRoleGateway, if_true]

/-- The role is lost: the gateway wrote it under `player_data:user_id:7`. -/
theorem not_rolesAgree_oneRole :
    ∃ g', oneRoleGateway.mysqlToRedis NoSqlStore.inMemory (MySql.reader reservedWords) = some g' ∧
      g'.db "player_data_table" = some oneRole ∧
      getRoleIds NoSqlStore.inMemory g'.nosql 7 = [] ∧
      ¬ RolesAgree NoSqlStore.inMemory g'.nosql oneRole := by
  have hrole : IsRoleOf oneRole.columns
      [some "1", some "7", some "a", some "5", some "2", some "1", some "0"] 7 "1" := by
    decide
  exact exists_not_rolesAgree (MySql.reader_executes reservedWords) NoSqlStore.inMemory_faithful
    oneRoleGateway_config (by decide) oneRoleGateway_nosql oneRoleGateway_db List.mem_cons_self
    hrole

end QCLib
