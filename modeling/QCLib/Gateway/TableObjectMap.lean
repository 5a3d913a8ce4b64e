import Mathlib.Data.List.Forall2
import Mathlib.Tactic.SplitIfs
import QCLib.Foundations.CStrings
import QCLib.Foundations.Indexes

/-!
# The mapping between tables and objects

`table_object_map.h`, and the part of `DBGateway` that fills it in from the elements of
`table2redis.xml`: which table belongs to which kind of object, and which column to which field. A
hash map is a map ordered by its keys.

An element of the configuration *describes* an object (`TableElement.Describes`) when the object is
what `InitConfig` makes of it. The results about the gateway are for any configuration whose
elements meet what is asked of them (`TableElement.Fits`); that of the repository is a value here,
`table2redis`, so they can be applied to it.
-/

namespace QCLib

open CStrings

/-! ### The maps -/

/-- `TableObjectMap`: how the columns of a table and the fields of an object are named, in both
directions, and which columns have sets. -/
structure TableObjectMap where
  objectName : String
  tableName : String
  tblKeyName : String
  keySeparator : String
  objectTableMap : Std.ExtTreeMap String String
  tableObjectMap : Std.ExtTreeMap String String
  bindItems : Std.ExtTreeSet String
  deriving DecidableEq

namespace TableObjectMap

/-- `GetObjFieldName`, empty for a column without a field. -/
def getObjFieldName (obj : TableObjectMap) (tblFieldName : String) : String :=
  (obj.tableObjectMap[tblFieldName]?).getD ""

/-- `GetTblFieldName`, empty for a field without a column. -/
def getTblFieldName (obj : TableObjectMap) (objFieldName : String) : String :=
  (obj.objectTableMap[objFieldName]?).getD ""

end TableObjectMap

/-- `ConfigIndexMap`: the objects, and their places by table and by name. -/
structure ConfigIndexMap where
  configs : List TableObjectMap := []
  tableMap : Std.ExtTreeMap String Nat := ∅
  objectMap : Std.ExtTreeMap String Nat := ∅
  deriving DecidableEq

namespace ConfigIndexMap

/-- `GetTableObjectMapByTblname`; `none` is `NULL`. -/
def getTableObjectMapByTblname (config : ConfigIndexMap) (n : String) : Option TableObjectMap :=
  (config.tableMap[n]?).bind fun pos ↦ config.configs[pos]?

end ConfigIndexMap

/-! ### `InitConfig` -/

/-- A `table` element, with its attributes and its `field` elements. -/
structure TableElement where
  tName : String
  rKeyPrefix : String
  tPrimaryKeyField : String
  rKeySeparator : String
  bindItem : Option String := none
  /-- `t_field` and `r_field`. -/
  fields : List (String × String)
  deriving DecidableEq, Repr

/-- The loop of `GetBindItems`, for at most the given number of turns. The pointer goes on behind
the first byte of the separator, a character here (`CStrings.ofBytes`); `none` when it leaves the
string. -/
def bindItemsLoop (sep : List Char) : Nat → List Char → Std.ExtTreeSet String →
    Option (Std.ExtTreeSet String)
  | 0, _, _ => none
  | n + 1, source, items =>
    match strstr source sep with
    | some pos =>
      if pos < source.length then
        bindItemsLoop sep n (source.drop (pos + 1)) (items.insert (String.ofList (source.take pos)))
      else none
    | none => some (if source = [] then items else items.insert (String.ofList source))

/-- `GetBindItems`. A missing attribute is a null pointer, and there are no items then. -/
def getBindItems (sep : String) : Option String → Option (Std.ExtTreeSet String)
  | none => some ∅
  | some source => bindItemsLoop sep.toList (source.length + 1) source.toList ∅

/-- One turn of the loop of `InitConfig`. -/
def addTable (config : ConfigIndexMap) (element : TableElement) : Option ConfigIndexMap :=
  (getBindItems element.rKeySeparator element.bindItem).map fun bindItems ↦
    let pos := config.configs.length
    { configs := config.configs ++ [{
        objectName := element.rKeyPrefix
        tableName := element.tName
        tblKeyName := element.tPrimaryKeyField
        keySeparator := element.rKeySeparator
        objectTableMap := element.fields.foldl (fun map field ↦ map.insert field.2 field.1) ∅
        tableObjectMap := element.fields.foldl (fun map field ↦ map.insert field.1 field.2) ∅
        bindItems }]
      tableMap := config.tableMap.insert element.tName pos
      objectMap := config.objectMap.insert element.rKeyPrefix pos }

/-- `InitConfig`: the elements are added one after another, and a later one takes over the place of
an earlier one with the same name. -/
def initConfig (tables : List TableElement) : Option ConfigIndexMap := tables.foldlM addTable {}

/-- `table2redis.xml`, the configuration in the repository. -/
def table2redis : List TableElement :=
  [{ tName := "player", rKeyPrefix := "player", tPrimaryKeyField := "account", rKeySeparator := ":"
     fields := [("account", "account"), ("username", "username"), ("deleted", "deleted"),
      ("userid", "userid"), ("useronlyid", "useronlyid"), ("bindata", "bindata"),
      ("textdata", "textdata")] },
    { tName := "goods", rKeyPrefix := "goods", tPrimaryKeyField := "idx", rKeySeparator := ":"
      fields := [("attr", "r_attr"), ("count", "r_count"), ("idx", "r_idx"), ("name", "r_name")] },
    { tName := "player_data_table", rKeyPrefix := "player_data", tPrimaryKeyField := "object_id"
      rKeySeparator := ":", bindItem := some "user_id:player_name"
      fields := [("object_id", "m_object_id"), ("user_id", "m_user_id"),
        ("player_name", "m_player_name"), ("playerLevel", "m_playerLevel"),
        ("playerJob", "m_playerJob"), ("playerCountry", "m_playerCountry"),
        ("lastLoginTime", "m_lastLoginTime")] },
    { tName := "temporary_record", rKeyPrefix := "r_temporary_record"
      tPrimaryKeyField := "key_name", rKeySeparator := ":"
      fields := [("key_name", "key_name"), ("key_value", "key_value")] }]

/-! ### Bind items -/

section BindItems

variable {sep source : List Char} {n pos : Nat} {items : Std.ExtTreeSet String}

theorem bindItemsLoop_of_some (h : strstr source sep = some pos) (hpos : pos < source.length) :
    bindItemsLoop sep (n + 1) source items =
      bindItemsLoop sep n (source.drop (pos + 1))
        (items.insert (String.ofList (source.take pos))) := by
  rw [bindItemsLoop, h]
  exact if_pos hpos

theorem bindItemsLoop_of_none (h : strstr source sep = none) :
    bindItemsLoop sep (n + 1) source items =
      some (if source = [] then items else items.insert (String.ofList source)) := by
  rw [bindItemsLoop, h]

/-- Two items with a colon between them are two items. -/
theorem getBindItems_pair {first second : String} (hfirst : ':' ∉ first.toList)
    (hsecond : ':' ∉ second.toList) (hne : second ≠ "") :
    getBindItems ":" (some (first ++ ":" ++ second)) =
      some (((∅ : Std.ExtTreeSet String).insert first).insert second) := by
  have htext : (first ++ ":" ++ second).toList = first.toList ++ ':' :: second.toList := by
    simp [String.toList_append]
  have hlength : (first ++ ":" ++ second).toList.length =
      first.toList.length + second.toList.length + 1 := by
    rw [htext, List.length_append, List.length_cons, Nat.add_assoc]
  have hnone : strstr second.toList [':'] = none := by
    rw [← Option.not_isSome_iff_eq_none, strstr_singleton_isSome]
    exact hsecond
  show bindItemsLoop [':'] ((first ++ ":" ++ second).toList.length + 1) _ _ = _
  rw [hlength, htext, bindItemsLoop_of_some (strstr_singleton hfirst) (by simp),
    List.drop_length_add_append, List.drop_succ_cons, List.drop_zero, List.take_left,
    bindItemsLoop_of_none hnone, if_neg (mt String.toList_eq_nil_iff.1 hne), String.ofList_toList,
    String.ofList_toList]

end BindItems

/-! ### What a configuration consists of -/

/-- The map that an element stands for. -/
structure TableElement.Describes (element : TableElement) (obj : TableObjectMap) : Prop where
  objectName : obj.objectName = element.rKeyPrefix
  tableName : obj.tableName = element.tName
  tblKeyName : obj.tblKeyName = element.tPrimaryKeyField
  keySeparator : obj.keySeparator = element.rKeySeparator
  objectTableMap : obj.objectTableMap =
    element.fields.foldl (fun map field ↦ map.insert field.2 field.1) ∅
  tableObjectMap : obj.tableObjectMap =
    element.fields.foldl (fun map field ↦ map.insert field.1 field.2) ∅
  bindItems : getBindItems element.rKeySeparator element.bindItem = some obj.bindItems

variable {tables : List TableElement} {config config' : ConfigIndexMap} {element : TableElement}

/-- An element that can be read adds one object to the configuration. -/
theorem addTable_eq_some (h : addTable config element = some config') :
    ∃ obj, element.Describes obj ∧ config'.configs = config.configs ++ [obj] ∧
      config'.tableMap = config.tableMap.insert element.tName config.configs.length := by
  simp only [addTable, Option.map_eq_some_iff] at h
  obtain ⟨bindItems, hitems, rfl⟩ := h
  exact ⟨_, ⟨rfl, rfl, rfl, rfl, rfl, rfl, hitems⟩, rfl, rfl⟩

/-- The last turn of `InitConfig` adds the last element to what the ones before it have given. -/
theorem initConfig_concat (h : initConfig (tables ++ [element]) = some config) :
    ∃ config₀, initConfig tables = some config₀ ∧ addTable config₀ element = some config := by
  rw [initConfig, List.foldlM_append] at h
  obtain ⟨config₀, hconfig, hadd⟩ := Option.bind_eq_some_iff.1 h
  refine ⟨config₀, hconfig, ?_⟩
  simpa using hadd

/-- The mapping is complete when the bind items of every element can be split. -/
theorem exists_initConfig (h : ∀ element ∈ tables, ∃ items,
    getBindItems element.rKeySeparator element.bindItem = some items) :
    ∃ config, initConfig tables = some config := by
  induction tables using List.reverseRecOn with
  | nil => exact ⟨_, rfl⟩
  | append_singleton tables element ih =>
    obtain ⟨htables, helement⟩ := List.forall_mem_append.1 h
    obtain ⟨config, hconfig⟩ := ih htables
    obtain ⟨items, hitems⟩ := helement element List.mem_cons_self
    obtain ⟨config', hadd⟩ : ∃ config', addTable config element = some config' := by
      rw [addTable, hitems]
      exact ⟨_, rfl⟩
    rw [initConfig] at hconfig
    refine ⟨config', ?_⟩
    rw [initConfig, List.foldlM_append, hconfig]
    simpa using hadd

/-- Every element has a map, in the same order. -/
theorem forall₂_describes (h : initConfig tables = some config) :
    List.Forall₂ TableElement.Describes tables config.configs := by
  induction tables using List.reverseRecOn generalizing config with
  | nil =>
    obtain rfl := Option.some.inj h
    exact .nil
  | append_singleton tables element ih =>
    obtain ⟨config₀, hconfig, hadd⟩ := initConfig_concat h
    obtain ⟨obj, hobj, hconfigs, -⟩ := addTable_eq_some hadd
    rw [hconfigs]
    exact List.rel_append (ih hconfig) (.cons hobj .nil)

/-- Every map of a configuration is described by an element of the file. -/
theorem exists_describes (h : initConfig tables = some config) {obj : TableObjectMap}
    (hobj : obj ∈ config.configs) : ∃ element ∈ tables, element.Describes obj := by
  have hforall := forall₂_describes h
  clear h
  generalize config.configs = configs at hforall hobj
  induction hforall with
  | nil => exact absurd hobj List.not_mem_nil
  | cons hrel _ ih =>
    rcases List.mem_cons.1 hobj with rfl | hobj
    · exact ⟨_, List.mem_cons_self, hrel⟩
    · obtain ⟨element, helement, hrel⟩ := ih hobj
      exact ⟨element, List.mem_cons_of_mem _ helement, hrel⟩

/-- What the elements and the maps have in common, in order. -/
theorem map_eq_map_of_describes (h : initConfig tables = some config) {α : Type}
    {f : TableElement → α} {g : TableObjectMap → α}
    (hfg : ∀ element obj, element.Describes obj → g obj = f element) :
    config.configs.map g = tables.map f := by
  have hforall := forall₂_describes h
  clear h
  generalize config.configs = configs at hforall
  induction hforall with
  | nil => rfl
  | cons hrel _ ih => rw [List.map_cons, List.map_cons, hfg _ _ hrel, ih]

/-- **Tables are found by name**, as long as no two elements are about one table. -/
theorem getTableObjectMapByTblname_eq (h : initConfig tables = some config)
    (hnodup : (tables.map TableElement.tName).Nodup) {obj : TableObjectMap}
    (hobj : obj ∈ config.configs) : config.getTableObjectMapByTblname obj.tableName = some obj := by
  induction tables using List.reverseRecOn generalizing config with
  | nil =>
    obtain rfl := Option.some.inj h
    exact absurd hobj List.not_mem_nil
  | append_singleton tables element ih =>
    rw [List.map_append, List.nodup_append] at hnodup
    obtain ⟨config₀, hconfig, hadd⟩ := initConfig_concat h
    obtain ⟨new, hnew, hconfigs, htableMap⟩ := addTable_eq_some hadd
    rw [ConfigIndexMap.getTableObjectMapByTblname, htableMap, Std.ExtTreeMap.getElem?_insert,
      hconfigs]
    simp only [Std.compare_eq_iff_eq]
    rw [hconfigs] at hobj
    rcases List.mem_append.1 hobj with hold | hlast
    · obtain ⟨element', helement', hrel⟩ := exists_describes hconfig hold
      have hne : element.tName ≠ obj.tableName := by
        rw [hrel.tableName]
        exact (hnodup.2.2 _ (List.mem_map_of_mem helement') _
          (List.mem_map_of_mem List.mem_cons_self)).symm
      have hfound := ih hconfig hnodup.1 hold
      rw [ConfigIndexMap.getTableObjectMapByTblname] at hfound
      obtain ⟨pos, hpos, hget⟩ := Option.bind_eq_some_iff.1 hfound
      rw [if_neg hne, hpos, Option.bind_some]
      obtain ⟨hlt, hget⟩ := List.getElem?_eq_some_iff.1 hget
      rw [List.getElem?_append_left hlt, List.getElem?_eq_getElem hlt, hget]
    · obtain rfl := List.mem_singleton.1 hlast
      rw [if_pos hnew.tableName.symm, Option.bind_some]
      exact List.getElem?_concat_length

end QCLib
