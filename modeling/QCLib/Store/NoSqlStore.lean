import QCLib.Store.RedisClient

/-!
# The key-value store, faithful

`NoSqlDBCache` with all its operations. What it rests on is Redis, one space of keys with a hash or
a set under each. A store is *faithful* when what it keeps can be described so, and every operation
does what its Redis command does (`NoSqlStore.Faithful`).

`KEYS` takes a pattern. Only patterns that are a plain text and a final star are needed.

Being faithful is a relation between a store and its description, and not an implementation:
`contents` says what is under each key, as one of three things, and each operation is related to it.
Whatever the list of an operation's results does not determine, the order of fields and members
above all, is left open. A store in memory shows that the assumption can be met
(`NoSqlStore.inMemory_faithful`), and serves the examples.
-/

namespace QCLib

/-! ### What is kept under a key -/

/-- What Redis keeps under a key. -/
inductive RedisEntry where
  | absent
  | hash (fields : String → Option String)
  | set (members : Set String)

/-- The fields of a hash after a write. -/
def writeFields (fields : String → Option String) (values : List KeyValue) :
    String → Option String :=
  values.foldl (fun fields kv ↦ Function.update fields kv.field (some kv.value)) fields

/-- Fields that are not written keep what they have. -/
theorem writeFields_of_notMem {values : List KeyValue} {f : String}
    (h : f ∉ values.map KeyValue.field) (fields : String → Option String) :
    writeFields fields values f = fields f := by
  induction values generalizing fields with
  | nil => rfl
  | cons kv values ih =>
    obtain ⟨hne, h⟩ := not_or.1 (mt List.mem_cons.2 h)
    exact (ih h _).trans (Function.update_of_ne hne _ _)

/-- When no field is written twice, each has the value that was written for it. -/
theorem writeFields_of_mem {values : List KeyValue} {kv : KeyValue}
    (hnodup : (values.map KeyValue.field).Nodup) (h : kv ∈ values)
    (fields : String → Option String) : writeFields fields values kv.field = some kv.value := by
  induction values generalizing fields with
  | nil => exact absurd h List.not_mem_nil
  | cons first values ih =>
    obtain ⟨hnot, hnodup⟩ := List.nodup_cons.1 hnodup
    rcases List.mem_cons.1 h with rfl | h
    · exact (writeFields_of_notMem hnot _).trans (Function.update_self _ _ _)
    · exact ih hnodup h _

namespace RedisEntry

/-- `HGET`. -/
def field : RedisEntry → String → Option String
  | .hash fields => fields
  | .absent | .set _ => fun _ ↦ none

/-- `SMEMBERS`. -/
def members : RedisEntry → Set String
  | .set members => members
  | .absent | .hash _ => ∅

/-- `HMSET`, which needs a field and leaves a set alone. -/
def setFields (e : RedisEntry) (values : List KeyValue) : RedisEntry :=
  if values = [] then e
  else
    match e with
    | .absent => .hash (writeFields (fun _ ↦ none) values)
    | .hash fields => .hash (writeFields fields values)
    | .set members => .set members

/-- `SADD`, which needs a member and leaves a hash alone. -/
def addMembers (e : RedisEntry) (new : List String) : RedisEntry :=
  if new = [] then e
  else
    match e with
    | .absent => .set {member | member ∈ new}
    | .hash fields => .hash fields
    | .set members => .set {member | member ∈ new ∨ member ∈ members}

/-- Writing a hash adds to no set. -/
@[simp] theorem members_setFields (e : RedisEntry) (values : List KeyValue) :
    (e.setFields values).members = e.members := by
  unfold setFields
  split_ifs
  · rfl
  · cases e <;> rfl

end RedisEntry

/-! ### The store -/

/-- `NoSqlDBCache`, with the sets and the list of keys. -/
structure NoSqlStore (σ : Type) extends NoSqlDBCache σ where
  getSetCache : σ → String → List String
  getAllKeys : σ → String → List String

/-- A text that stands for itself in a pattern. -/
def PlainPattern (text : String) : Prop := ∀ c ∈ text.toList, c ∉ ['*', '?', '[', ']', '\\']

instance (text : String) : Decidable (PlainPattern text) :=
  List.decidableBAll (· ∉ ['*', '?', '[', ']', '\\']) text.toList

/-- The store keeps hashes and sets faithfully. -/
structure NoSqlStore.Faithful {σ : Type} (nosql : NoSqlStore σ)
    (contents : σ → String → RedisEntry) : Prop where
  setDataCache : ∀ db key values, contents (nosql.setDataCache db key values) =
    Function.update (contents db) key ((contents db key).setFields values)
  addSetCache : ∀ db key new, contents (nosql.addSetCache db key new) =
    Function.update (contents db) key ((contents db key).addMembers new)
  getDataCacheAll : ∀ db key, ((nosql.getDataCacheAll db key).map (·.field)).Nodup ∧
    ∀ kv : KeyValue, kv ∈ nosql.getDataCacheAll db key ↔
      (contents db key).field kv.field = some kv.value
  getSetCache : ∀ db key, (nosql.getSetCache db key).Nodup ∧
    ∀ member, member ∈ nosql.getSetCache db key ↔ member ∈ (contents db key).members
  getAllKeys : ∀ db text, PlainPattern text → (nosql.getAllKeys db (text ++ "*")).Nodup ∧
    ∀ key, key ∈ nosql.getAllKeys db (text ++ "*") ↔
      contents db key ≠ .absent ∧ text.toList <+: key.toList

/-! ### A store in memory -/

/-- What is kept under a key, in memory. -/
inductive RedisValue where
  | hash (fields : Std.ExtTreeMap String String)
  | set (members : Std.ExtTreeSet String)
  deriving DecidableEq

/-- The entry that it is. -/
def RedisValue.entry : RedisValue → RedisEntry
  | .hash fields => .hash fun field ↦ fields[field]?
  | .set members => .set {member | member ∈ members}

/-- The hash after some fields have been inserted. -/
def insertFields (hash : Std.ExtTreeMap String String) (values : List KeyValue) :
    Std.ExtTreeMap String String :=
  values.foldl (fun hash kv ↦ hash.insert kv.field kv.value) hash

/-- A store that keeps hashes and sets in memory. -/
def NoSqlStore.inMemory : NoSqlStore (Std.ExtTreeMap String RedisValue) where
  setDataCache db key values :=
    if values = [] then db
    else
      match db[key]? with
      | none => db.insert key (.hash (insertFields ∅ values))
      | some (.hash fields) => db.insert key (.hash (insertFields fields values))
      | some (.set _) => db
  getDataCacheAll db key :=
    match db[key]? with
    | some (.hash fields) => fields.toList.map fun p ↦ ⟨p.1, p.2⟩
    | some (.set _) | none => []
  addSetCache db key new :=
    if new = [] then db
    else
      match db[key]? with
      | none => db.insert key (.set ((∅ : Std.ExtTreeSet String).insertMany new))
      | some (.hash _) => db
      | some (.set members) => db.insert key (.set (members.insertMany new))
  getSetCache db key :=
    match db[key]? with
    | some (.set members) => members.toList
    | some (.hash _) | none => []
  getAllKeys db pattern := db.keys.filter fun key ↦ pattern.toList.dropLast.isPrefixOf key.toList

/-- The entries of a store in memory. -/
def inMemoryContents (db : Std.ExtTreeMap String RedisValue) (key : String) : RedisEntry :=
  match db[key]? with
  | some value => value.entry
  | none => .absent

theorem inMemoryContents_of_some {db : Std.ExtTreeMap String RedisValue} {key : String}
    {value : RedisValue} (h : db[key]? = some value) : inMemoryContents db key = value.entry := by
  rw [inMemoryContents, h]

theorem inMemoryContents_of_none {db : Std.ExtTreeMap String RedisValue} {key : String}
    (h : db[key]? = none) : inMemoryContents db key = .absent := by
  rw [inMemoryContents, h]

/-- Writing fields into a map is writing them into the function that it represents. -/
theorem writeFields_getElem? (hash : Std.ExtTreeMap String String) (values : List KeyValue) :
    writeFields (fun field ↦ hash[field]?) values =
      fun field ↦ (insertFields hash values)[field]? := by
  induction values generalizing hash with
  | nil => rfl
  | cons kv values ih =>
    have hinsert : Function.update (fun field ↦ hash[field]?) kv.field (some kv.value) =
        fun field ↦ (hash.insert kv.field kv.value)[field]? := by
      funext field
      rw [Function.update_apply, Std.ExtTreeMap.getElem?_insert]
      simp only [Std.compare_eq_iff_eq]
      by_cases h : kv.field = field
      · subst h
        simp
      · rw [if_neg h, if_neg (Ne.symm h)]
    rw [writeFields, List.foldl_cons, hinsert]
    exact ih _

/-- Writing under a key changes what is seen under that key, and nothing else. -/
theorem inMemoryContents_insert (db : Std.ExtTreeMap String RedisValue) (key : String)
    (value : RedisValue) :
    inMemoryContents (db.insert key value) =
      Function.update (inMemoryContents db) key value.entry := by
  funext k
  rw [Function.update_apply, inMemoryContents, Std.ExtTreeMap.getElem?_insert]
  simp only [Std.compare_eq_iff_eq]
  by_cases h : key = k
  · subst h
    simp
  · rw [if_neg h, if_neg (Ne.symm h), inMemoryContents]

/-- The in-memory store does what its interface promises, so the assumption about the store can be
met. -/
theorem NoSqlStore.inMemory_faithful : NoSqlStore.inMemory.Faithful inMemoryContents where
  setDataCache db key values := by
    simp only [inMemory, RedisEntry.setFields]
    by_cases hvalues : values = []
    · simp only [if_pos hvalues, Function.update_eq_self]
    · simp only [if_neg hvalues]
      rcases hdb : db[key]? with _ | ⟨fields⟩ | ⟨members⟩
      · have hempty : (fun field ↦ (∅ : Std.ExtTreeMap String String)[field]?) = fun _ ↦ none :=
          funext fun field : String ↦ Std.ExtTreeMap.getElem?_empty
        simp only [inMemoryContents_of_none hdb, inMemoryContents_insert, RedisValue.entry,
          ← writeFields_getElem?, hempty]
      · simp only [inMemoryContents_of_some hdb, inMemoryContents_insert, RedisValue.entry,
          writeFields_getElem?]
      · simp only [inMemoryContents_of_some hdb, RedisValue.entry]
        exact (Function.update_eq_self_iff.2 (inMemoryContents_of_some hdb).symm).symm
  addSetCache db key new := by
    simp only [inMemory, RedisEntry.addMembers]
    by_cases hnew : new = []
    · simp only [if_pos hnew, Function.update_eq_self]
    · simp only [if_neg hnew]
      rcases hdb : db[key]? with _ | ⟨fields⟩ | ⟨members⟩
      · simp [inMemoryContents_of_none hdb, inMemoryContents_insert, RedisValue.entry,
          Std.ExtTreeSet.mem_insertMany_list]
      · simp only [inMemoryContents_of_some hdb, RedisValue.entry]
        exact (Function.update_eq_self_iff.2 (inMemoryContents_of_some hdb).symm).symm
      · simp [inMemoryContents_of_some hdb, inMemoryContents_insert, RedisValue.entry,
          Std.ExtTreeSet.mem_insertMany_list, or_comm]
  getDataCacheAll db key := by
    simp only [inMemory]
    rcases hdb : db[key]? with _ | ⟨fields⟩ | ⟨members⟩
    · simp [inMemoryContents_of_none hdb, RedisEntry.field]
    · rw [inMemoryContents_of_some hdb, List.map_map]
      refine ⟨List.pairwise_map.2 (Std.ExtTreeMap.distinct_keys_toList.imp fun hne heq ↦
        hne (Std.compare_eq_iff_eq.2 heq)), fun kv ↦ ?_⟩
      show _ ↔ fields[kv.field]? = some kv.value
      rw [List.mem_map, ← Std.ExtTreeMap.mem_toList_iff_getElem?_eq_some]
      exact ⟨fun ⟨p, hp, h⟩ ↦ h ▸ hp, fun h ↦ ⟨_, h, rfl⟩⟩
    · simp [inMemoryContents_of_some hdb, RedisValue.entry, RedisEntry.field]
  getSetCache db key := by
    simp only [inMemory]
    rcases hdb : db[key]? with _ | ⟨fields⟩ | ⟨members⟩
    · simp [inMemoryContents_of_none hdb, RedisEntry.members]
    · simp [inMemoryContents_of_some hdb, RedisValue.entry, RedisEntry.members]
    · rw [inMemoryContents_of_some hdb]
      exact ⟨Std.ExtTreeSet.distinct_toList.imp fun hne heq ↦ hne (Std.compare_eq_iff_eq.2 heq),
        fun member ↦ Std.ExtTreeSet.mem_toList⟩
  getAllKeys db text _ := by
    have hdrop : (text ++ "*").toList.dropLast = text.toList := by
      rw [String.toList_append]
      exact List.dropLast_concat
    simp only [inMemory, hdrop]
    refine ⟨List.Nodup.filter _ (Std.ExtTreeMap.distinct_keys.imp fun hne heq ↦
      hne (Std.compare_eq_iff_eq.2 heq)), fun key ↦ ?_⟩
    rw [List.mem_filter, List.isPrefixOf_iff_prefix, Std.ExtTreeMap.mem_keys]
    refine and_congr_left' ?_
    rcases hdb : db[key]? with _ | value
    · simp [inMemoryContents_of_none hdb, ← Std.ExtTreeMap.isSome_getElem?_iff_mem, hdb]
    · rw [inMemoryContents_of_some hdb, ← Std.ExtTreeMap.isSome_getElem?_iff_mem, hdb]
      cases value <;> simp [RedisValue.entry]

end QCLib
