import QCLib.Gateway.RecordKeys

/-!
# The records that loading leaves

Under a key of its own prefix an object has what the rows of its table wrote there
(`contents_loadTables`), and every row writes all the fields; so a key either was not written, or it
has exactly the record of the last row with that key (`entry_cases`).

The shape of a key decides who can have written it. The key of a record is the object name, a colon
and the key text, cut at a NUL; the key of a set has one more colon in it. With names that have no
colon, a key with one colon is that of a record, and the name in front of it tells the object. So
the keys of two objects, and the two kinds of keys of one object, are kept apart, and
`contents_loadTables` needs to look at one table only.
-/

namespace QCLib

open CStrings Sql DBGateway

variable {reserved : String → Bool}

/-! ### Configurations -/

/-- What is expected of an element: names that can be written as they are, a colon as the separator
and in no name of an object, and a mapping that is one-to-one. -/
structure TableElement.Fits (reserved : String → Bool) (element : TableElement) : Prop where
  tName : IsName reserved element.tName
  tPrimaryKeyField : IsName reserved element.tPrimaryKeyField
  rKeySeparator : element.rKeySeparator = ":"
  noColon : ':' ∉ element.rKeyPrefix.toList
  noNul : NoNul element.rKeyPrefix
  plain : PlainPattern element.rKeyPrefix
  names : ∀ field ∈ element.fields, IsName reserved field.1
  columns_nodup : (element.fields.map Prod.fst).Nodup
  fields_nodup : (element.fields.map Prod.snd).Nodup

/-- What is expected of the map of such an element: names that can be written as they are, a colon
as the separator and in no name of an object, and a way back from the fields to the columns. -/
structure TableObjectMap.Fits (reserved : String → Bool) (obj : TableObjectMap) : Prop where
  tableName : IsName reserved obj.tableName
  tblKeyName : IsName reserved obj.tblKeyName
  keySeparator : obj.keySeparator = ":"
  noColon : ':' ∉ obj.objectName.toList
  noNul : NoNul obj.objectName
  plain : PlainPattern obj.objectName
  mapped : ∀ name, obj.getObjFieldName name ≠ "" →
    IsName reserved name ∧ obj.getTblFieldName (obj.getObjFieldName name) = name

/-- A map that is filled in from a list without two equal keys has the pairs of the list and no
others. -/
theorem getElem?_filled {α : Type} {f g : α → String} {l : List α} (hnodup : (l.map f).Nodup)
    (k v : String) :
    (l.foldl (fun map a ↦ map.insert (f a) (g a)) (∅ : Std.ExtTreeMap String String))[k]? = some v ↔
      ∃ a ∈ l, f a = k ∧ g a = v := by
  rw [Indexes.getElem?_foldl_insert hnodup]
  simp

/-- **The mapping can be undone**: an element of the file that fits describes an object whose two
maps are inverse to each other. -/
theorem TableElement.Describes.fits {element : TableElement} {obj : TableObjectMap}
    (h : element.Describes obj) (hfits : element.Fits reserved) : obj.Fits reserved where
  tableName := h.tableName ▸ hfits.tName
  tblKeyName := h.tblKeyName ▸ hfits.tPrimaryKeyField
  keySeparator := h.keySeparator.trans hfits.rKeySeparator
  noColon := h.objectName ▸ hfits.noColon
  noNul := h.objectName ▸ hfits.noNul
  plain := h.objectName ▸ hfits.plain
  mapped name hname := by
    have hsome : obj.tableObjectMap[name]? ≠ none := fun hnone ↦ hname (by
      rw [TableObjectMap.getObjFieldName, hnone]
      rfl)
    obtain ⟨field, hfield⟩ := Option.ne_none_iff_exists'.1 hsome
    rw [TableObjectMap.getObjFieldName, hfield, Option.getD_some]
    rw [h.tableObjectMap] at hfield
    obtain ⟨a, ha, rfl, rfl⟩ := (getElem?_filled hfits.columns_nodup _ _).1 hfield
    have hback := (getElem?_filled (g := Prod.fst) hfits.fields_nodup _ _).2 ⟨a, ha, rfl, rfl⟩
    refine ⟨hfits.names a ha, ?_⟩
    rw [TableObjectMap.getTblFieldName, h.objectTableMap]
    exact congrArg (Option.getD · "") hback

/-! ### The rows of a table -/

section Rows

variable {obj : TableObjectMap} {columns : List Column} {row : Row} {rows : List Row} {K : String}

/-- What a row makes of an entry. -/
def rowEntry (obj : TableObjectMap) (columns : List Column) (K : String) (e : RedisEntry)
    (row : Row) : RedisEntry :=
  if obj.recordKey columns row = K then e.setFields (obj.record columns row) else e

/-- The row is the last one with its key. -/
def IsLast (obj : TableObjectMap) (columns : List Column) (rows : List Row) (K : String)
    (row : Row) : Prop :=
  obj.recordKey columns row = K ∧ ∃ before after, rows = before ++ row :: after ∧
    ∀ row' ∈ after, obj.recordKey columns row' ≠ K

/-- The entry is a record. -/
def RedisEntry.IsRecord (e : RedisEntry) (record : List KeyValue) : Prop :=
  ∃ fields, e = .hash fields ∧ ∀ kv : KeyValue, fields kv.field = some kv.value ↔ kv ∈ record

/-- The fields of a record are the mapped names of the columns. -/
theorem map_field_record (obj : TableObjectMap) (hlength : row.length = columns.length) :
    (obj.record columns row).map KeyValue.field =
      columns.map fun c ↦ obj.getObjFieldName c.name := by
  rw [TableObjectMap.record, List.map_map]
  conv_rhs => rw [← List.map_fst_zip (Nat.le_of_eq hlength.symm), List.map_map]
  rfl

/-- Different columns have different fields, because the mapping can be undone. -/
theorem nodup_fields (hfits : obj.Fits reserved) (hmapped : Mapped obj columns)
    (hnodup : (columns.map Column.name).Nodup) :
    (columns.map fun c ↦ obj.getObjFieldName c.name).Nodup := by
  have hback : columns.map (obj.getTblFieldName ∘ fun c ↦ obj.getObjFieldName c.name) =
      columns.map Column.name :=
    List.map_congr_left fun c hc ↦ (hfits.mapped c.name (hmapped c hc)).2
  refine List.Nodup.of_map obj.getTblFieldName ?_
  rwa [List.map_map, hback]

/-- A record replaces another one of the same table. -/
theorem isRecord_setFields {e : RedisEntry} {record : List KeyValue}
    (hnodup : (record.map KeyValue.field).Nodup) (hne : record ≠ [])
    (he : e = .absent ∨ ∃ fields, e = .hash fields ∧
      ∀ f, fields f ≠ none → f ∈ record.map KeyValue.field) :
    (e.setFields record).IsRecord record := by
  have hfields : ∀ fields : String → Option String,
      (∀ f, fields f ≠ none → f ∈ record.map KeyValue.field) →
      ∀ kv : KeyValue, writeFields fields record kv.field = some kv.value ↔ kv ∈ record := by
    intro fields hfields kv
    refine ⟨fun h ↦ ?_, fun h ↦ writeFields_of_mem hnodup h fields⟩
    have hmem : kv.field ∈ record.map KeyValue.field := by
      by_contra hnot
      rw [writeFields_of_notMem hnot] at h
      exact hnot (hfields _ (h ▸ Option.some_ne_none _))
    obtain ⟨kv', hkv', hfield⟩ := List.mem_map.1 hmem
    rw [← hfield, writeFields_of_mem hnodup hkv'] at h
    obtain ⟨f, v⟩ := kv
    obtain ⟨f', v'⟩ := kv'
    obtain rfl := Option.some.inj h
    obtain rfl := hfield
    exact hkv'
  rcases he with rfl | ⟨fields, rfl, hdomain⟩
  · refine ⟨_, if_neg hne, hfields _ fun f hf ↦ absurd rfl hf⟩
  · exact ⟨_, if_neg hne, hfields _ hdomain⟩

/-- A table without columns writes nothing. -/
theorem foldl_rowEntry_nil (obj : TableObjectMap) (K : String) (rows : List Row) (e : RedisEntry) :
    rows.foldl (rowEntry obj [] K) e = e := by
  induction rows with
  | nil => rfl
  | cons row rows ih =>
    have hrow : rowEntry obj [] K e row = e := ite_self e
    rw [List.foldl_cons, hrow]
    exact ih

/-- **What the rows leave under a key**: nothing, or the record of the last row with it. -/
theorem entry_cases (hfits : obj.Fits reserved) (hmapped : Mapped obj columns)
    (hnodup : (columns.map Column.name).Nodup) (hne : columns ≠ [])
    (hrows : ∀ row ∈ rows, row.length = columns.length) (K : String) :
    (rows.foldl (rowEntry obj columns K) .absent = .absent ∧
        ∀ row ∈ rows, obj.recordKey columns row ≠ K) ∨
      ∃ row ∈ rows, IsLast obj columns rows K row ∧
        (rows.foldl (rowEntry obj columns K) .absent).IsRecord (obj.record columns row) := by
  induction rows using List.reverseRecOn with
  | nil => exact .inl ⟨rfl, by simp⟩
  | append_singleton rows row ih =>
    obtain ⟨hrows, hrow⟩ := List.forall_mem_append.1 hrows
    have hlength : row.length = columns.length := hrow row List.mem_cons_self
    rw [List.foldl_append, List.foldl_cons, List.foldl_nil]
    by_cases hkey : obj.recordKey columns row = K
    · refine .inr ⟨row, List.mem_append_right _ List.mem_cons_self,
        ⟨hkey, rows, [], rfl, by simp⟩, ?_⟩
      rw [rowEntry, if_pos hkey]
      refine isRecord_setFields ?_ ?_ ?_
      · rw [map_field_record obj hlength]
        exact nodup_fields hfits hmapped hnodup
      · intro hnil
        have hfields := map_field_record obj hlength
        rw [hnil] at hfields
        exact hne (List.map_eq_nil_iff.1 hfields.symm)
      · rcases ih hrows with ⟨hentry, -⟩ | ⟨row', hrow', -, fields, hentry, hfields⟩
        · exact .inl hentry
        · refine .inr ⟨fields, hentry, fun f hf ↦ ?_⟩
          obtain ⟨v, hv⟩ := Option.ne_none_iff_exists'.1 hf
          have hmem : f ∈ (obj.record columns row').map KeyValue.field :=
            List.mem_map.2 ⟨⟨f, v⟩, (hfields ⟨f, v⟩).1 hv, rfl⟩
          rwa [map_field_record obj (hrows row' hrow'), ← map_field_record obj hlength] at hmem
    · rw [rowEntry, if_neg hkey]
      rcases ih hrows with ⟨hentry, hnone⟩ |
        ⟨row', hrow', ⟨hkey', before, after, rfl, hafter⟩, hrecord⟩
      · refine .inl ⟨hentry, List.forall_mem_append.2 ⟨hnone, ?_⟩⟩
        simpa using hkey
      · refine .inr ⟨row', List.mem_append_left _ hrow', ⟨hkey', before, after ++ [row], ?_, ?_⟩,
          hrecord⟩
        · rw [List.append_assoc]
          rfl
        · exact List.forall_mem_append.2 ⟨hafter, by simpa using hkey⟩

end Rows

/-! ### All tables -/

section Tables

variable {σ : Type} (nosql : NoSqlStore σ) {contents : σ → String → RedisEntry} {db : σ}
  {K : String} {obj : TableObjectMap} {configs : List TableObjectMap} {tables : Database}

/-- What the table of an object makes of an entry. -/
def tableEntry (obj : TableObjectMap) (t : Option Table) (K : String) (e : RedisEntry) :
    RedisEntry :=
  match t with
  | none => e
  | some t => if Mapped obj t.columns then t.rows.foldl (rowEntry obj t.columns K) e else e

/-- What loading a table stores under a key that is no set key. -/
theorem contents_loadTable (hnosql : nosql.Faithful contents) (hfits : obj.Fits reserved)
    (hbind : ∀ item, NoNul item → ∀ value, obj.bindKey item value ≠ K) (t : Option Table) :
    contents (loadTable nosql obj t db) K = tableEntry obj t K (contents db K) := by
  rcases t with _ | t
  · rfl
  · simp only [loadTable, tableEntry]
    split_ifs with hmapped
    · have hrow : ∀ (db : σ) row, contents (writeRow nosql obj t.columns db row) K =
          rowEntry obj t.columns K (contents db K) row := by
        intro db row
        rw [contents_writeRow nosql hnosql, rowEntry]
        rintro item - ⟨c, hc, rfl⟩
        exact hbind _ (noNul_of_isWord (hfits.mapped c.name (hmapped c hc)).1.1)
      induction t.rows generalizing db with
      | nil => rfl
      | cons row rows ih => rw [List.foldl_cons, List.foldl_cons, ih, hrow]
    · rfl

/-- A table whose rows have other keys leaves the entry as it was. -/
theorem tableEntry_of_ne {e : RedisEntry} (h : ∀ pk, obj.keyOf pk ≠ K) (t : Option Table) :
    tableEntry obj t K e = e := by
  rcases t with _ | t
  · rfl
  · have hrow : ∀ rows : List Row, rows.foldl (rowEntry obj t.columns K) e = e := by
      intro rows
      induction rows with
      | nil => rfl
      | cons row rows ih =>
        rw [List.foldl_cons, rowEntry, obj.recordKey_eq, if_neg (h _)]
        exact ih
    simp only [tableEntry, hrow, ite_self]

/-- **What loading leaves under a key** that belongs to the records of one object. -/
theorem contents_loadTables (hnosql : nosql.Faithful contents)
    (hfits : ∀ o ∈ configs, o.Fits reserved) (hnodup : configs.Nodup) (hobj : obj ∈ configs)
    (hempty : contents db K = .absent)
    (hbind : ∀ o ∈ configs, ∀ item, NoNul item → ∀ value, o.bindKey item value ≠ K)
    (hother : ∀ o ∈ configs, o ≠ obj → ∀ pk, o.keyOf pk ≠ K) :
    contents (loadTables nosql configs tables db) K =
      tableEntry obj (tables obj.tableName) K .absent := by
  have hstep : ∀ o ∈ configs, ∀ db : σ, contents (loadTable nosql o (tables o.tableName) db) K =
      if o = obj then tableEntry obj (tables obj.tableName) K (contents db K)
      else contents db K := by
    intro o ho db
    rw [contents_loadTable nosql hnosql (hfits o ho) (hbind o ho)]
    split_ifs with heq
    · rw [heq]
    · exact tableEntry_of_ne (hother o ho heq) _
  have hrest : ∀ (l : List TableObjectMap) (db : σ), l ⊆ configs → obj ∉ l →
      contents (loadTables nosql l tables db) K = contents db K := by
    intro l
    induction l with
    | nil => exact fun db _ _ ↦ rfl
    | cons o l ih =>
      intro db hsub hnot
      obtain ⟨ho, hl⟩ := List.cons_subset.1 hsub
      obtain ⟨hne, hnot⟩ := not_or.1 (mt List.mem_cons.2 hnot)
      rw [loadTables, List.foldl_cons, ← loadTables, ih _ hl hnot, hstep o ho,
        if_neg (Ne.symm hne)]
  obtain ⟨before, after, rfl⟩ := List.append_of_mem hobj
  obtain ⟨-, hafter, hdisjoint⟩ := List.nodup_append.1 hnodup
  have hbefore : obj ∉ before := fun hmem ↦ hdisjoint _ hmem _ List.mem_cons_self rfl
  rw [loadTables, List.foldl_append, List.foldl_cons, ← loadTables, ← loadTables,
    hrest after _ (fun o ho ↦ by simp [ho]) (List.nodup_cons.1 hafter).1,
    hstep obj hobj, if_pos rfl, hrest before _ (fun o ho ↦ by simp [ho]) hbefore, hempty]

end Tables

end QCLib
