import QCLib.Gateway.StatementReading
import QCLib.Gateway.StoredRecords

/-!
# Saving after loading

What `NosqlToMysqlByKeys` makes of the records that loading has left. A row is *written back* if its
key can be told and is its own, and no text of it has a NUL (`WrittenBack`); then an `update` sets
all its cells to what was stored for them. Every other key is skipped, or its statement is cut, and
the server refuses it. So it is known what a turn makes of the table (`keyTurn_record`).

The state of the loop over the keys is the table with some rows saved and others not (`SaveState`);
a turn adds the row of its key to those that are done. Two rows may have the same key text up to a
NUL. Then the record is that of the last one, and the `update` is meant for a key that only one of
them has: `keyTurn_cut` and `keyTurn_whole` are the two cases.

Saving changes no key, so the primary key of the table is kept by every `update`, and the server has
no reason to refuse one.
-/

namespace QCLib

open CStrings Sql DBGateway

variable {reserved : String → Bool} {obj o : TableObjectMap} {K v : String}

/-! ### Keys with a colon -/

/-- The first colon decides what is in front of it. -/
theorem eq_of_append_cons {front front' back back' : List Char} (h : ':' ∉ front)
    (h' : ':' ∉ front') (heq : front ++ ':' :: back = front' ++ ':' :: back') :
    front = front' ∧ back = back' := by
  have htake : ∀ front back : List Char, ':' ∉ front →
      (front ++ ':' :: back).takeWhile (· ≠ ':') = front := by
    intro front back hfront
    have hall : ∀ c ∈ front, decide (c ≠ ':') = true := by
      intro c hc
      exact decide_eq_true fun heq ↦ hfront (heq ▸ hc)
    rw [List.takeWhile_append_of_pos hall, List.takeWhile_cons_of_neg (by simp), List.append_nil]
  obtain rfl : front = front' := by rw [← htake front back h, heq, htake front' back' h']
  exact ⟨rfl, (List.cons.inj (List.append_cancel_left heq)).2⟩

theorem eq_of_append_colon {a a' b b' : String} (ha : ':' ∉ a.toList) (ha' : ':' ∉ a'.toList)
    (h : a ++ ":" ++ b = a' ++ ":" ++ b') : a = a' ∧ b = b' := by
  have hlist : a.toList ++ ':' :: b.toList = a'.toList ++ ':' :: b'.toList := by
    simpa [String.toList_append] using congrArg String.toList h
  obtain ⟨hfront, hback⟩ := eq_of_append_cons ha ha' hlist
  exact ⟨String.toList_inj.1 hfront, String.toList_inj.1 hback⟩

/-- A key of the object is long enough for the test for the separator, which begins behind the
prefix. -/
theorem le_length_key (obj : TableObjectMap) (v : String) :
    (obj.objectName ++ ":").length ≤ (obj.objectName ++ ":" ++ v).length := by
  rw [String.length_append (s := obj.objectName ++ ":")]
  exact Nat.le_add_right _ _

section Keys

variable (hfits : obj.Fits reserved)

include hfits

/-- The key of a record of an object that is as expected: its name, a colon, and the key of the
table up to a NUL. -/
theorem keyOf_fits (pk : String) : obj.keyOf pk = obj.objectName ++ ":" ++ cStr pk := by
  have hsep : NoNul obj.keySeparator := by
    rw [hfits.keySeparator]
    decide
  rw [keyOf_eq hfits.noNul hsep, hfits.keySeparator]

/-- The key of a set has a second colon, behind the item. -/
theorem bindKey_fits {item : String} (hitem : NoNul item) (value : String) :
    obj.bindKey item value = obj.objectName ++ ":" ++ (item ++ ":" ++ cStr value) := by
  have hsep : NoNul obj.keySeparator := by
    rw [hfits.keySeparator]
    decide
  rw [bindKey_eq hfits.noNul hsep hitem, hfits.keySeparator]

/-- A key of the object is skipped exactly if there is another colon behind its name, which is how
sets are told from records. -/
theorem skips_fits (v : String) :
    obj.Skips (obj.objectName ++ ":" ++ v) ↔ ':' ∈ (cStr v).toList := by
  have hdrop : (obj.objectName ++ ":" ++ v).toList.drop (obj.objectName ++ ":").length =
      v.toList := by
    rw [String.toList_append, ← String.length_toList, List.drop_left]
  have hsep : (cStr obj.keySeparator).toList = [':'] := by
    rw [hfits.keySeparator]
    decide
  rw [TableObjectMap.Skips, hdrop, String.ofList_toList, hsep, strstr_singleton_isSome]

/-- The part of a key that is for the table is everything behind the first colon. -/
theorem tableKey_fits (hv : v ≠ "") : tableKey (obj.objectName ++ ":" ++ v) = some v := by
  refine tableKey_eq_some_iff.2 ⟨hv, obj.objectName.toList, hfits.noColon, ?_⟩
  simp [String.toList_append]

/-- There is no such part when nothing is behind the colon. -/
theorem tableKey_fits_empty : tableKey (obj.objectName ++ ":" ++ "") = none := by
  refine Option.eq_none_iff_forall_ne_some.2 fun pk h ↦ ?_
  obtain ⟨hne, front, hfront, hkey⟩ := tableKey_eq_some_iff.1 h
  have hlist : obj.objectName.toList ++ ':' :: [] = front ++ ':' :: pk.toList := by
    simpa [String.toList_append] using hkey
  obtain ⟨-, hback⟩ := eq_of_append_cons hfits.noColon hfront hlist
  exact hne (String.toList_eq_nil_iff.1 hback.symm)

end Keys

/-! ### Tables -/

/-- What is expected of a table: if it has a primary key, then this is the column that the object is
configured with; and no text has a quote or a backslash. -/
structure TableFits (obj : TableObjectMap) (t : Table) : Prop where
  key : ∀ c ∈ t.columns, c.isPrimary → c.name = obj.tblKeyName
  plain : ∀ row ∈ t.rows, ∀ u, some u ∈ row → IsPlain u

/-- The row with what is stored for its cells. -/
def storedRow (columns : List Column) (row : Row) : Row :=
  List.zipWith (fun c x ↦ some (storedText c x)) columns row

/-- The row is written back: all columns have a field; the text of its key is not empty and has no
colon; no text has a NUL; and no later row is taken for it. -/
structure WrittenBack (obj : TableObjectMap) (t : Table) (row : Row) : Prop where
  mapped : Mapped obj t.columns
  key_ne : keyText t.columns row ≠ ""
  noColon : ':' ∉ (keyText t.columns row).toList
  noNul : ∀ p ∈ t.columns.zip row, NoNul (storedText p.1 p.2)
  last : ∃ before after, t.rows = before ++ row :: after ∧
    ∀ row' ∈ after, cStr (keyText t.columns row') ≠ keyText t.columns row

section Texts

variable {columns : List Column} {row : Row} {c : Column} {x : Cell}

/-- Replacing a text brings no quote and no backslash into it. -/
theorem isPlain_storedText (h : ∀ u, x = some u → IsPlain u) : IsPlain (storedText c x) := by
  have htext : IsPlain (x.getD "") := by
    rcases x with _ | u
    · exact fun c hc ↦ absurd hc (by simp)
    · exact h u rfl
  have hdefault : IsPlain "default_bin_data" := by decide
  unfold storedText redisValue
  split
  · exact htext
  · exact htext
  · split_ifs
    · exact hdefault
    · exact htext
  · split_ifs
    · exact hdefault
    · exact htext

theorem isPlain_cStr (h : IsPlain v) : IsPlain (cStr v) := by
  intro c hc
  rw [toList_cStr] at hc
  exact h c (List.takeWhile_subset _ hc)

/-- A row has a text for its key only if the table has a key column. -/
theorem exists_isKeyColumn (h : keyText columns row ≠ "") : ∃ c ∈ columns, IsKeyColumn c := by
  induction columns generalizing row with
  | nil => exact absurd rfl h
  | cons c columns ih =>
    by_cases hc : IsKeyColumn c
    · exact ⟨c, List.mem_cons_self, hc⟩
    · rcases row with _ | ⟨x, row⟩
      · exact absurd rfl h
      · rw [keyText, List.zip_cons_cons, keyTextOf, if_neg hc] at h
        obtain ⟨d, hd, hkey⟩ := ih h
        exact ⟨d, List.mem_cons_of_mem _ hd, hkey⟩

/-- Every column has a cell in a row of the right length. -/
theorem exists_mem_zip (h : row.length = columns.length) (hc : c ∈ columns) :
    ∃ x, (c, x) ∈ columns.zip row := by
  have hmem : c ∈ (columns.zip row).map Prod.fst := by
    rwa [List.map_fst_zip (Nat.le_of_eq h.symm)]
  obtain ⟨p, hp, rfl⟩ := List.mem_map.1 hmem
  exact ⟨p.2, hp⟩

theorem length_storedRow (h : row.length = columns.length) :
    (storedRow columns row).length = columns.length := by
  rw [storedRow, List.length_zipWith, h, Nat.min_self]

theorem mem_zip_storedRow (h : (c, x) ∈ columns.zip row) :
    (c, some (storedText c x)) ∈ columns.zip (storedRow columns row) := by
  induction columns generalizing row with
  | nil => exact absurd h (by simp)
  | cons d columns ih =>
    rcases row with _ | ⟨y, row⟩
    · exact absurd h (by simp)
    · rw [List.zip_cons_cons, List.mem_cons] at h
      rw [storedRow, List.zipWith_cons_cons, List.zip_cons_cons, List.mem_cons]
      rcases h with heq | h
      · obtain ⟨rfl, rfl⟩ := Prod.mk.inj heq
        exact .inl rfl
      · exact .inr (ih h)

end Texts

section Key

variable {t : Table} {row row' : Row} (ht : TableFits obj t)

include ht

/-- A table with a key column has no other one. -/
theorem keyIsOneColumn (h : ∃ c ∈ t.columns, IsKeyColumn c) : KeyIsOneColumn t.columns := by
  obtain ⟨c, hc, hkey⟩ := h
  have hname := ht.key c hc (isPrimary_of_isKeyColumn hkey)
  have hnodup := t.names_nodup
  have hprimary := ht.key
  obtain ⟨l₁, l₂, hsplit⟩ := List.append_of_mem hc
  rw [hsplit] at hnodup hprimary ⊢
  rw [List.map_append, List.map_cons, List.nodup_middle, List.nodup_cons] at hnodup
  have hother : ∀ d ∈ l₁ ++ l₂, ¬ d.isPrimary := by
    intro d hd hdp
    have hmem : d ∈ l₁ ++ c :: l₂ := by
      rcases List.mem_append.1 hd with hd | hd
      · exact List.mem_append_left _ hd
      · exact List.mem_append_right _ (List.mem_cons_of_mem _ hd)
    refine hnodup.1 ?_
    rw [← List.map_append, hname, ← hprimary d hmem hdp]
    exact List.mem_map_of_mem hd
  obtain ⟨hl₁, hl₂⟩ := List.forall_mem_append.1 hother
  refine ⟨c, ?_, hkey⟩
  rw [List.filter_append, List.filter_cons, if_pos (isPrimary_of_isKeyColumn hkey),
    List.filter_eq_nil_iff.2 hl₁, List.filter_eq_nil_iff.2 hl₂]
  rfl

/-- **The text of the key** is the cell in the column that the object is configured with. -/
theorem key_mem_zip (hkey : KeyIsOneColumn t.columns) (hrow : row ∈ t.rows) :
    ∃ c, IsKeyColumn c ∧ c.name = obj.tblKeyName ∧
      (c, some (keyText t.columns row)) ∈ t.columns.zip row := by
  have hlength := Table.length_row hrow
  have hnull := t.valid.2.1 row hrow
  have hprimary := ht.key
  obtain ⟨l₁, c, l₂, r₁, x, r₂, hcolumns, rfl, hr₁, hc, hl₁, hl₂⟩ :=
    split_of_keyIsOneColumn hkey hlength
  rw [hcolumns] at hnull hprimary ⊢
  rw [keyCells_split hr₁, if_pos (isPrimary_of_isKeyColumn hc)] at hnull
  obtain ⟨u, rfl⟩ : ∃ u, x = some u := by
    refine Option.ne_none_iff_exists'.1 ?_
    rintro rfl
    exact hnull (by simp)
  refine ⟨c, hc, hprimary c (by simp) (isPrimary_of_isKeyColumn hc), ?_⟩
  rw [keyText_of_one hl₁ hl₂ hc hr₁, List.zip_append hr₁.symm, List.zip_cons_cons]
  exact List.mem_append_right _ List.mem_cons_self

/-- The cell of the configured key is the text that the row is stored under. -/
theorem cell_key (hkey : KeyIsOneColumn t.columns) (hrow : row ∈ t.rows) :
    cell t.columns row obj.tblKeyName = some (some (keyText t.columns row)) := by
  obtain ⟨c, -, hname, hmem⟩ := key_mem_zip ht hkey hrow
  rw [← hname]
  exact cell_of_mem_zip t.names_nodup hmem

/-- What is stored for a row has the key of the row, since a key column is never replaced. -/
theorem cell_key_storedRow (hkey : KeyIsOneColumn t.columns) (hrow : row ∈ t.rows) :
    cell t.columns (storedRow t.columns row) obj.tblKeyName =
      some (some (keyText t.columns row)) := by
  obtain ⟨c, hc, hname, hmem⟩ := key_mem_zip ht hkey hrow
  have hstored := mem_zip_storedRow hmem
  rw [storedText_of_isKeyColumn hc] at hstored
  rw [← hname]
  exact cell_of_mem_zip t.names_nodup hstored

/-- The configured field is the primary key, so rows are known by it. -/
theorem isKey_fits (hkey : KeyIsOneColumn t.columns) : IsKey t.columns obj.tblKeyName := by
  obtain ⟨c, hfilter, hc⟩ := hkey
  have hmem : c ∈ t.columns.filter Column.isPrimary := hfilter ▸ List.mem_cons_self
  have hcolumn := (List.mem_filter.1 hmem).1
  have hname := ht.key c hcolumn (isPrimary_of_isKeyColumn hc)
  refine ⟨⟨c, hcolumn, hname⟩, fun d hd ↦ ⟨ht.key d hd, fun hdname ↦ ?_⟩⟩
  obtain rfl := List.inj_on_of_nodup_map t.names_nodup hd hcolumn (hdname.trans hname.symm)
  exact isPrimary_of_isKeyColumn hc

/-- Rows with the same text of the key are the same. -/
theorem eq_of_keyText_eq (hkey : KeyIsOneColumn t.columns) (hrow : row ∈ t.rows)
    (hrow' : row' ∈ t.rows) (h : keyText t.columns row = keyText t.columns row') : row = row' := by
  have hholds : holds t.columns obj.tblKeyName (keyText t.columns row) row :=
    decide_eq_true (cell_key ht hkey hrow)
  have hholds' : holds t.columns obj.tblKeyName (keyText t.columns row) row' := by
    rw [h]
    exact decide_eq_true (cell_key ht hkey hrow')
  exact Table.eq_of_holds (isKey_fits ht hkey) hrow hrow' hholds hholds'

end Key

/-! ### Rows that are written back -/

open scoped Classical in
/-- A row of the table, when some keys are done. -/
noncomputable def savedRow (obj : TableObjectMap) (t : Table) (done : List String) (row : Row) :
    Row :=
  if WrittenBack obj t row ∧ obj.recordKey t.columns row ∈ done then storedRow t.columns row
  else row

/-- The table, when some keys are done. -/
def Saved (obj : TableObjectMap) (t : Table) (done : List String) (t' : Table) : Prop :=
  t'.columns = t.columns ∧ t'.rows = t.rows.map (savedRow obj t done)

section Saved

variable {t t' : Table} {row r : Row} {done : List String}

/-- A row whose key has not been dealt with, or that is not written back, is as it was. -/
theorem savedRow_of_not (h : WrittenBack obj t row → obj.recordKey t.columns row ∉ done) :
    savedRow obj t done row = row :=
  if_neg fun hand ↦ h hand.1 hand.2

theorem saved_nil (obj : TableObjectMap) (t : Table) : Saved obj t [] t := by
  refine ⟨rfl, ?_⟩
  rw [List.map_congr_left fun row _ ↦ savedRow_of_not fun _ ↦ List.not_mem_nil, List.map_id']

/-- A key that is not the row's own does not change the row. -/
theorem savedRow_concat (h : WrittenBack obj t row → obj.recordKey t.columns row ≠ K) :
    savedRow obj t (done ++ [K]) row = savedRow obj t done row := by
  have hiff : (WrittenBack obj t row ∧ obj.recordKey t.columns row ∈ done ++ [K]) ↔
      (WrittenBack obj t row ∧ obj.recordKey t.columns row ∈ done) := by
    refine and_congr_right fun hrow ↦ ?_
    rw [List.mem_append, List.mem_singleton, or_iff_left (h hrow)]
  unfold savedRow
  by_cases hdone : WrittenBack obj t row ∧ obj.recordKey t.columns row ∈ done
  · rw [if_pos (hiff.2 hdone), if_pos hdone]
  · rw [if_neg (mt hiff.1 hdone), if_neg hdone]

/-- A key that is no row's own changes nothing. -/
theorem Saved.skip (hsaved : Saved obj t done t')
    (h : ∀ row ∈ t.rows, WrittenBack obj t row → obj.recordKey t.columns row ≠ K) :
    Saved obj t (done ++ [K]) t' :=
  ⟨hsaved.1, hsaved.2.trans
    (List.map_congr_left fun row hrow ↦ (savedRow_concat (h row hrow)).symm)⟩

theorem length_savedRow (obj : TableObjectMap) (done : List String) (hrow : row ∈ t.rows) :
    (savedRow obj t done row).length = t.columns.length := by
  unfold savedRow
  split_ifs
  · exact length_storedRow (Table.length_row hrow)
  · exact Table.length_row hrow

/-- What is stored for a cell is its text, if it has one, or stands for binary data. -/
theorem storedText_eq_or (c : Column) (x : Cell) :
    storedText c x = x.getD "" ∨ storedText c x = "default_bin_data" := by
  unfold storedText redisValue
  split
  · exact .inl rfl
  · exact .inl rfl
  · exact (ite_eq_or_eq _ _ _).symm
  · exact (ite_eq_or_eq _ _ _).symm

/-- A row that is being saved has its own cells, or what was stored for them. -/
theorem cell_savedRow (obj : TableObjectMap) (done : List String)
    (hp : (c, x) ∈ t.columns.zip row) :
    cell t.columns (savedRow obj t done row) c.name = some x ∨
      cell t.columns (savedRow obj t done row) c.name = some (some (storedText c x)) := by
  unfold savedRow
  split_ifs
  · exact .inr (cell_of_mem_zip t.names_nodup (mem_zip_storedRow hp))
  · exact .inl (cell_of_mem_zip t.names_nodup hp)

/-- The assignments for a record that is read from the store. -/
theorem assignmentsOf_record {record : List KeyValue} (hfits : obj.Fits reserved)
    (hmapped : Mapped obj t.columns) (hnodup : (record.map KeyValue.field).Nodup)
    (hrecord : ∀ kv, kv ∈ record ↔ kv ∈ obj.record t.columns row) :
    ((assignmentsOf obj record).map Prod.fst).Nodup ∧
      (∀ a ∈ assignmentsOf obj record,
        ∃ p ∈ t.columns.zip row, a = (p.1.name, storedText p.1 p.2)) ∧
      ∀ p ∈ t.columns.zip row, (p.1.name, storedText p.1 p.2) ∈ assignmentsOf obj record := by
  have hfield : ∀ kv ∈ record, ∃ c ∈ t.columns, kv.field = obj.getObjFieldName c.name := by
    intro kv hkv
    obtain ⟨p, hp, rfl⟩ := List.mem_map.1 ((hrecord kv).1 hkv)
    exact ⟨p.1, (List.of_mem_zip hp).1, rfl⟩
  refine ⟨?_, ?_, ?_⟩
  · refine List.Nodup.of_map obj.getObjFieldName ?_
    have hback : ((assignmentsOf obj record).map Prod.fst).map obj.getObjFieldName =
        record.map KeyValue.field := by
      rw [assignmentsOf, List.map_map, List.map_map]
      refine List.map_congr_left fun kv hkv ↦ ?_
      obtain ⟨c, hc, hkvc⟩ := hfield kv hkv
      show obj.getObjFieldName (obj.getTblFieldName kv.field) = kv.field
      rw [hkvc, (hfits.mapped c.name (hmapped c hc)).2]
    rwa [hback]
  · refine List.forall_mem_map.2 fun kv hkv ↦ ?_
    obtain ⟨p, hp, rfl⟩ := List.mem_map.1 ((hrecord kv).1 hkv)
    refine ⟨p, hp, ?_⟩
    rw [(hfits.mapped p.1.name (hmapped p.1 (List.of_mem_zip hp).1)).2]
  · intro p hp
    have hmem := (hrecord _).2 (List.mem_map_of_mem hp)
    refine List.mem_map.2 ⟨_, hmem, ?_⟩
    rw [(hfits.mapped p.1.name (hmapped p.1 (List.of_mem_zip hp).1)).2]

variable (hfits : obj.Fits reserved) (ht : TableFits obj t)

include ht

/-- The key of a row is the same before and after it is saved. -/
theorem cell_key_savedRow (done : List String) (hkey : KeyIsOneColumn t.columns)
    (hrow : row ∈ t.rows) : cell t.columns (savedRow obj t done row) obj.tblKeyName =
      some (some (keyText t.columns row)) := by
  unfold savedRow
  split_ifs
  · exact cell_key_storedRow ht hkey hrow
  · exact cell_key ht hkey hrow

/-- Saving changes no key, so the condition of the `update` holds for the same rows before and
after. -/
theorem holds_savedRow (done : List String) (hkey : KeyIsOneColumn t.columns)
    (hrow : row ∈ t.rows) :
    holds t.columns obj.tblKeyName v (savedRow obj t done row) ↔ keyText t.columns row = v := by
  rw [holds, cell_key_savedRow ht done hkey hrow]
  simp

theorem noNul_keyText (hrow : row ∈ t.rows) (hkey : KeyIsOneColumn t.columns)
    (hnul : ∀ p ∈ t.columns.zip row, NoNul (storedText p.1 p.2)) :
    NoNul (keyText t.columns row) := by
  obtain ⟨c, hc, -, hmem⟩ := key_mem_zip ht hkey hrow
  have htext := hnul _ hmem
  rwa [storedText_of_isKeyColumn hc] at htext

include hfits

/-- A row that is written back has a key without separator and NUL, and the key of its record is
what the save path expects. -/
theorem recordKey_of_writtenBack (hrow : row ∈ t.rows) (h : WrittenBack obj t row) :
    obj.recordKey t.columns row = obj.objectName ++ ":" ++ keyText t.columns row := by
  have hkey : KeyIsOneColumn t.columns := keyIsOneColumn ht (exists_isKeyColumn h.key_ne)
  rw [obj.recordKey_eq, keyOf_fits hfits, cStr_eq_self.2 (noNul_keyText ht hrow hkey h.noNul)]

/-- **The `update` for a row** that is written back. -/
theorem Saved.update {record : List KeyValue} (hsaved : Saved obj t done t') (hr : r ∈ t.rows)
    (hwritten : WrittenBack obj t r) (hnodup : (record.map KeyValue.field).Nodup)
    (hrecord : ∀ kv, kv ∈ record ↔ kv ∈ obj.record t.columns r) :
    ∃ t'', t'.update (assignmentsOf obj record) obj.tblKeyName (keyText t.columns r) = some t'' ∧
      Saved obj t (done ++ [obj.recordKey t.columns r]) t'' := by
  have hkey : KeyIsOneColumn t.columns := keyIsOneColumn ht (exists_isKeyColumn hwritten.key_ne)
  obtain ⟨hnames, hfrom, hassigned⟩ := assignmentsOf_record hfits hwritten.mapped hnodup hrecord
  have hmem : ∀ a ∈ assignmentsOf obj record, a.1 ∈ t.names := by
    intro a ha
    obtain ⟨p, hp, rfl⟩ := hfrom a ha
    exact List.mem_map_of_mem (List.of_mem_zip hp).1
  have hset : setCells t.columns (savedRow obj t done r) (assignmentsOf obj record) =
      storedRow t.columns r := by
    refine row_ext t.names_nodup (length_setCells (length_savedRow obj done hr) _)
      (length_storedRow (Table.length_row hr)) fun name hname ↦ ?_
    obtain ⟨c, hc, rfl⟩ := List.mem_map.1 hname
    obtain ⟨x, hx⟩ := exists_mem_zip (Table.length_row hr) hc
    obtain ⟨y, hy⟩ := exists_cell (length_savedRow obj done hr) hname
    rw [cell_setCells (length_savedRow obj done hr) hnames (hassigned _ hx), hy,
      cell_of_mem_zip t.names_nodup (mem_zip_storedRow hx)]
    rfl
  have hstored : savedRow obj t (done ++ [obj.recordKey t.columns r]) r = storedRow t.columns r :=
    if_pos ⟨hwritten, List.mem_append_right _ List.mem_cons_self⟩
  obtain ⟨columns, rows, hnames', hvalid'⟩ := t'
  obtain ⟨rfl, rfl⟩ : columns = t.columns ∧ rows = t.rows.map (savedRow obj t done) := hsaved
  -- The row itself gets what is stored, and the others keep what they have.
  have hmap : ∀ row ∈ t.rows,
      (if holds t.columns obj.tblKeyName (keyText t.columns r) (savedRow obj t done row) then
        setCells t.columns (savedRow obj t done row) (assignmentsOf obj record)
      else savedRow obj t done row) =
        savedRow obj t (done ++ [obj.recordKey t.columns r]) row := by
    intro row hrow
    by_cases heq : row = r
    · subst heq
      rw [if_pos ((holds_savedRow ht done hkey hrow).2 rfl), hset, hstored]
    · have hne : keyText t.columns row ≠ keyText t.columns r :=
        mt (eq_of_keyText_eq ht hkey hrow hr) heq
      rw [if_neg (mt (holds_savedRow ht done hkey hrow).1 hne), savedRow_concat]
      intro hrowWritten hsame
      rw [recordKey_of_writtenBack hfits ht hrow hrowWritten,
        recordKey_of_writtenBack hfits ht hr hwritten] at hsame
      exact hne ((String.append_right_inj _).1 hsame)
  have hlength : ∀ row ∈ t.rows.map (savedRow obj t done),
      (if holds t.columns obj.tblKeyName (keyText t.columns r) row then
        setCells t.columns row (assignmentsOf obj record) else row).length = t.columns.length := by
    refine List.forall_mem_map.2 fun row hrow ↦ ?_
    rw [hmap row hrow]
    exact length_savedRow obj _ hrow
  have hcells : ∀ row ∈ t.rows.map (savedRow obj t done), ∀ c ∈ t.columns, c.isPrimary →
      cell t.columns (if holds t.columns obj.tblKeyName (keyText t.columns r) row then
        setCells t.columns row (assignmentsOf obj record) else row) c.name =
          cell t.columns row c.name := by
    refine List.forall_mem_map.2 fun row hrow c hc hprimary ↦ ?_
    rw [hmap row hrow, ht.key c hc hprimary, cell_key_savedRow ht _ hkey hrow,
      cell_key_savedRow ht _ hkey hrow]
  obtain ⟨t'', ht'', hcolumns, hrows⟩ :=
    Table.withRows_map (t := ⟨t.columns, t.rows.map (savedRow obj t done), hnames', hvalid'⟩)
      hlength hcells
  have hname : obj.tblKeyName ∈ t.columns.map Column.name := by
    obtain ⟨c, hc, hname⟩ := (isKey_fits ht hkey).1
    exact hname ▸ List.mem_map_of_mem hc
  refine ⟨t'', (if_pos ⟨hname, hmem⟩).trans ht'', hcolumns, ?_⟩
  rw [hrows, List.map_map]
  exact List.map_congr_left hmap

/-- The `update` for a row takes back what is there. -/
theorem Saved.takesBack {db : Database} {record : List KeyValue} (hsaved : Saved obj t done t')
    (hdb : db obj.tableName = some t') (hr : r ∈ t.rows) (hwritten : WrittenBack obj t r)
    (hnodup : (record.map KeyValue.field).Nodup)
    (hrecord : ∀ kv, kv ∈ record ↔ kv ∈ obj.record t.columns r) :
    TakesBack db (.update obj.tableName (assignmentsOf obj record) obj.tblKeyName
      (keyText t.columns r)) := by
  have hkey : KeyIsOneColumn t.columns := keyIsOneColumn ht (exists_isKeyColumn hwritten.key_ne)
  obtain ⟨-, hfrom, -⟩ := assignmentsOf_record hfits hwritten.mapped hnodup hrecord
  obtain ⟨hcolumns, hrows⟩ := hsaved
  refine ⟨t', hdb, savedRow obj t done r, hrows ▸ List.mem_map_of_mem hr, ?_, fun a ha ↦ ?_⟩
  · rw [hcolumns]
    exact (holds_savedRow ht done hkey hr).2 rfl
  · obtain ⟨p, hp, rfl⟩ := hfrom a ha
    rw [hcolumns]
    rcases cell_savedRow obj done hp with hcell | hcell
    · exact ⟨_, hcell, storedText_eq_or p.1 p.2⟩
    · exact ⟨_, hcell, .inl rfl⟩

end Saved

/-! ### The last row with a key -/

section Last

variable {t : Table} {row row' : Row}

/-- The last row with a key is the first one from behind. -/
theorem find?_of_isLast {columns : List Column} {rows : List Row}
    (h : IsLast obj columns rows K row) :
    rows.reverse.find? (fun row ↦ obj.recordKey columns row = K) = some row := by
  obtain ⟨hkey, before, after, rfl, hafter⟩ := h
  have hnone : after.reverse.find? (fun row ↦ obj.recordKey columns row = K) = none := by
    rw [List.find?_eq_none]
    intro row hrow
    simpa using hafter row (List.mem_reverse.1 hrow)
  rw [List.reverse_append, List.reverse_cons, List.append_assoc, List.find?_append, hnone,
    Option.none_or, List.singleton_append]
  simp [hkey]

/-- Two rows have one key in the store if their texts are the same up to a NUL. -/
theorem recordKey_eq_iff (hfits : obj.Fits reserved) :
    obj.recordKey t.columns row = obj.objectName ++ ":" ++ v ↔
      cStr (keyText t.columns row) = v := by
  rw [obj.recordKey_eq, keyOf_fits hfits, String.append_right_inj]

/-- A row that is written back is the last one with its key. -/
theorem WrittenBack.isLast (hfits : obj.Fits reserved) (ht : TableFits obj t) (hrow : row ∈ t.rows)
    (h : WrittenBack obj t row) :
    IsLast obj t.columns t.rows (obj.objectName ++ ":" ++ keyText t.columns row) row := by
  obtain ⟨before, after, hrows, hafter⟩ := h.last
  exact ⟨recordKey_of_writtenBack hfits ht hrow h, before, after, hrows,
    fun row' hrow' ↦ mt (recordKey_eq_iff hfits).1 (hafter row' hrow')⟩

/-- The last row with a key is written back, if it is mapped, the key can be told from that of a
set, and no text has a NUL. -/
theorem IsLast.writtenBack (hfits : obj.Fits reserved) (hmapped : Mapped obj t.columns)
    (hv : v ≠ "") (hcolon : ':' ∉ v.toList) (hkeyText : keyText t.columns row = v)
    (h : IsLast obj t.columns t.rows (obj.objectName ++ ":" ++ v) row)
    (hnul : ∀ p ∈ t.columns.zip row, NoNul (storedText p.1 p.2)) : WrittenBack obj t row := by
  obtain ⟨-, before, after, hrows, hafter⟩ := h
  refine ⟨hmapped, hkeyText ▸ hv, hkeyText ▸ hcolon, hnul, before, after, hrows,
    fun row' hrow' heq ↦ hafter row' hrow' ?_⟩
  rw [recordKey_eq_iff hfits, heq, hkeyText]

end Last

/-! ### A turn -/

section Turn

variable {σ : Type} {nosql : NoSqlStore σ} {mysql : MySql} {contents : σ → String → RedisEntry}
  {t t' : Table} {r : Row} {done : List String} {g₀ g : DBGateway σ}

/-- **The count query finds the row of a key once**, however much has been saved. -/
theorem count_of_saved (ht : TableFits obj t) (hkey : KeyIsOneColumn t.columns)
    (hsaved : Saved obj t done t') (hr : r ∈ t.rows) :
    t'.count obj.tblKeyName (keyText t.columns r) = some 1 := by
  obtain ⟨hcolumns, hrows⟩ := hsaved
  have hrow : savedRow obj t done r ∈ t'.rows := hrows ▸ List.mem_map_of_mem hr
  refine Table.count_eq_one ?_ hrow ?_
  · rw [hcolumns]
    exact isKey_fits ht hkey
  · rw [hcolumns]
    exact (holds_savedRow ht done hkey hr).2 rfl

/-- It finds nothing where no row has the text as its key. -/
theorem count_of_saved_of_ne (ht : TableFits obj t) (hkey : KeyIsOneColumn t.columns)
    (hsaved : Saved obj t done t') (hne : ∀ r ∈ t.rows, keyText t.columns r ≠ v) :
    t'.count obj.tblKeyName v = some 0 := by
  obtain ⟨hcolumns, hrows⟩ := hsaved
  obtain ⟨c, hc, hname⟩ := (isKey_fits ht hkey).1
  have hmem : obj.tblKeyName ∈ t'.names := by
    rw [Table.names, hcolumns, ← hname]
    exact List.mem_map_of_mem hc
  rw [Table.count, if_pos hmem, hcolumns, hrows]
  refine congrArg some (List.countP_eq_zero.2 (List.forall_mem_map.2 fun row hrow ↦ ?_))
  exact mt (holds_savedRow ht done hkey hrow).1 (hne row hrow)

/-- The count query is answered with the number of rows that have the key. -/
theorem getDataFromDb_count (hmysql : mysql.Executes reserved) (hfits : obj.Fits reserved)
    {db : Database} {n : Nat} (hv : Verbatim v) (hdb : db obj.tableName = some t')
    (hcount : t'.count obj.tblKeyName v = some n) :
    getDataFromDb mysql db (countText obj v) =
      some (db, some ([[toString n]], [.ofColumn countColumn])) := by
  have hquery : mysql.query db (cStr (countText obj v)) =
      some (db, some ⟨[countColumn], [[some (toString n)]]⟩) := by
    rw [hmysql.executes _ _ _ (read_countText hfits.tableName hfits.tblKeyName hv) trivial, execute,
      hdb, Option.bind_some, hcount]
    rfl
  rw [getDataFromDb, hquery]
  rfl

/-- **A turn for a record** whose key has been counted. -/
theorem keyTurn_counted (hmysql : mysql.Executes reserved) (hfits : obj.Fits reserved)
    (hfound : g.config.getTableObjectMapByTblname obj.tableName = some obj) {n : Nat}
    (hv : Verbatim v) (hne : v ≠ "") (hcolon : ':' ∉ v.toList)
    (hdb : g.db obj.tableName = some t') (hcount : t'.count obj.tblKeyName v = some n)
    {record : List KeyValue}
    (hrecord : nosql.getDataCacheAll g.nosql (obj.objectName ++ ":" ++ v) = record)
    (hfull : record ≠ []) (hmapped : AllMapped obj record) {statement : String}
    (hstatement : statementFor obj obj.tableName (toString n) record
      (whereKey obj.tblKeyName v) = some statement) :
    keyTurn nosql mysql obj (g, "") (obj.objectName ++ ":" ++ v) =
      some ({ g with
        db := setDataToDb mysql g.db statement
        sent := g.sent ++ [statement] }, "") := by
  have hnul : cStr (obj.objectName ++ ":" ++ v) = obj.objectName ++ ":" ++ v :=
    cStr_eq_self.2 (noNul_append.2 ⟨noNul_append.2 ⟨hfits.noNul, by decide⟩, hv.2⟩)
  have hskips : ¬ obj.Skips (obj.objectName ++ ":" ++ v) := by
    rw [skips_fits hfits, cStr_eq_self.2 hv.2]
    exact hcolon
  have hnonempty : statement ≠ "" := statementFor_ne_empty hstatement
  rw [keyTurn_eq (le_length_key obj v) hskips (by rw [hnul, hrecord]; exact hfull), hnul, hrecord,
    valuesToMysql_of_some (tableKey_fits hfits hne), getDataFromDb_count hmysql hfits hv hdb hcount]
  have htext : answerText g.config obj.tableName (toString n) record (whereKey obj.tblKeyName v) =
      statement := by
    rw [answerText_of_mapped hfound hmapped hfull, hstatement, Option.getD_some]
  simp only [List.getElem?_cons_zero, Option.bind_some, Option.map_some, htext, if_neg hnonempty]

/-- The state while an object is saved: nothing but its table has changed. -/
structure SaveState (obj : TableObjectMap) (t : Table) (g₀ : DBGateway σ) (done : List String)
    (g : DBGateway σ) : Prop where
  config : g.config = g₀.config
  nosql : g.nosql = g₀.nosql
  others : ∀ name, name ≠ obj.tableName → g.db name = g₀.db name
  table : ∃ t', g.db obj.tableName = some t' ∧ Saved obj t done t'

/-- Under the key of a record, the fields of the record are read, each of them once. -/
theorem getDataCacheAll_of_isRecord (hnosql : nosql.Faithful contents) {db : σ}
    {record : List KeyValue} (h : (contents db K).IsRecord record) :
    ((nosql.getDataCacheAll db K).map KeyValue.field).Nodup ∧
      ∀ kv, kv ∈ nosql.getDataCacheAll db K ↔ kv ∈ record := by
  obtain ⟨hnodup, hmem⟩ := hnosql.getDataCacheAll db K
  obtain ⟨fields, hfields, hrecord⟩ := h
  refine ⟨hnodup, fun kv ↦ ?_⟩
  rw [hmem, hfields]
  exact hrecord kv

/-- A statement that is cut in a literal is refused. -/
theorem setDataToDb_of_ends (hmysql : mysql.Executes reserved) {statement : String}
    (h : EndsInLiteral (cStr statement).toList) (db : Database) :
    setDataToDb mysql db statement = db := by
  rw [setDataToDb, hmysql.refuses db _ h]

/-- An `update` that the server can read and that takes back what is there is carried out. -/
theorem setDataToDb_of_update (hmysql : mysql.Executes reserved) {statement : String}
    {db : Database} {assignments : List (String × String)} {t'' : Table}
    (hread : Sql.read reserved (cStr statement) =
      some (.update obj.tableName assignments obj.tblKeyName v))
    (hback : TakesBack db (.update obj.tableName assignments obj.tblKeyName v))
    (hdb : db obj.tableName = some t')
    (hupdate : t'.update assignments obj.tblKeyName v = some t'') :
    setDataToDb mysql db statement = Function.update db obj.tableName (some t'') := by
  rw [setDataToDb, hmysql.executes _ _ _ hread hback, execute, hdb, Option.bind_some, hupdate,
    Option.map_some]

/-- A key that belongs to no row, and leaves the database alone. -/
theorem SaveState.skip {g' : DBGateway σ} (h : SaveState obj t g₀ done g)
    (hconfig : g'.config = g.config) (hnosql : g'.nosql = g.nosql) (hdb : g'.db = g.db)
    (hnone : ∀ row ∈ t.rows, WrittenBack obj t row → obj.recordKey t.columns row ≠ K) :
    SaveState obj t g₀ (done ++ [K]) g' := by
  obtain ⟨t', hdb', hsaved⟩ := h.table
  refine ⟨hconfig.trans h.config, hnosql.trans h.nosql, ?_, t', ?_, hsaved.skip hnone⟩
  · rw [hdb]
    exact h.others
  · rw [hdb, hdb']

/-- What is read for a key: the record of the last row with it. -/
structure RecordRead (obj : TableObjectMap) (t : Table) (v : String) (r : Row)
    (record : List KeyValue) : Prop where
  mapped : Mapped obj t.columns
  key_ne : v ≠ ""
  noColon : ':' ∉ v.toList
  mem : r ∈ t.rows
  last : IsLast obj t.columns t.rows (obj.objectName ++ ":" ++ v) r
  nodup : (record.map KeyValue.field).Nodup
  read : ∀ kv, kv ∈ record ↔ kv ∈ obj.record t.columns r

namespace RecordRead

variable {record : List KeyValue} (h : RecordRead obj t v r record) (hfits : obj.Fits reserved)

include h hfits

/-- The key that was read is the key of the row, up to a NUL. -/
theorem cStr_keyText : cStr (keyText t.columns r) = v := (recordKey_eq_iff hfits).1 h.last.1

theorem keyText_ne : keyText t.columns r ≠ "" := by
  intro hempty
  have hcut := h.cStr_keyText hfits
  rw [hempty] at hcut
  exact h.key_ne hcut.symm

/-- Every field that was read belongs to a column with a name that can be written. -/
theorem isName : ∀ kv ∈ record, IsName reserved (obj.getTblFieldName kv.field) := by
  intro kv hkv
  obtain ⟨p, hp, rfl⟩ := List.mem_map.1 ((h.read kv).1 hkv)
  obtain ⟨hpname, hback⟩ := hfits.mapped p.1.name (h.mapped p.1 (List.of_mem_zip hp).1)
  show IsName reserved (obj.getTblFieldName (obj.getObjFieldName p.1.name))
  rwa [hback]

theorem allMapped : AllMapped obj record := fun kv hkv ↦
  mt String.toList_eq_nil_iff.2 (h.isName hfits kv hkv).1.1

variable (ht : TableFits obj t)

include ht

/-- The key of the table is one column, since the row has a text for it. -/
theorem isOneColumn : KeyIsOneColumn t.columns :=
  keyIsOneColumn ht (exists_isKeyColumn (h.keyText_ne hfits))

theorem ne_nil : record ≠ [] := by
  obtain ⟨c, -, -, hmem⟩ := key_mem_zip ht (h.isOneColumn hfits ht) h.mem
  exact List.ne_nil_of_mem ((h.read _).2 (List.mem_map_of_mem hmem))

theorem verbatim : Verbatim v := by
  obtain ⟨c, -, -, hmem⟩ := key_mem_zip ht (h.isOneColumn hfits ht) h.mem
  rw [← h.cStr_keyText hfits]
  exact ⟨(isPlain_cStr (ht.plain r h.mem _ (List.of_mem_zip hmem).2)).isKept, noNul_cStr _⟩

omit hfits in
/-- Every value that was read can stand in a statement, up to a NUL. -/
theorem isPlain : ∀ kv ∈ record, IsPlain kv.value := by
  intro kv hkv
  obtain ⟨p, hp, rfl⟩ := List.mem_map.1 ((h.read kv).1 hkv)
  exact isPlain_storedText fun u hu ↦ ht.plain r h.mem u (hu ▸ (List.of_mem_zip hp).2)

/-- With a NUL among the values, no row is written back by the key: such a row would be the last one
with the key, so the values would be its own. -/
theorem recordKey_ne (hnul : ∃ kv ∈ record, ¬ NoNul kv.value) :
    ∀ row ∈ t.rows, WrittenBack obj t row →
      obj.recordKey t.columns row ≠ obj.objectName ++ ":" ++ v := by
  intro row hrow hwritten hsame
  -- It would be the last row with the key, so the record is its own.
  have hlast := hwritten.isLast hfits ht hrow
  rw [← recordKey_of_writtenBack hfits ht hrow hwritten, hsame] at hlast
  obtain rfl := Option.some.inj ((find?_of_isLast hlast).symm.trans (find?_of_isLast h.last))
  obtain ⟨kv, hkv, hvalue⟩ := hnul
  obtain ⟨p, hp, rfl⟩ := List.mem_map.1 ((h.read kv).1 hkv)
  exact hvalue (hwritten.noNul p hp)

variable (hmysql : mysql.Executes reserved)
  (hfound : g₀.config.getTableObjectMapByTblname obj.tableName = some obj)
  (hlist : nosql.getDataCacheAll g₀.nosql (obj.objectName ++ ":" ++ v) = record)
  (hstate : SaveState obj t g₀ done g)

include hmysql hfound hlist hstate

/-- **The turn for a record with a NUL.** The statement is cut in a literal, so nothing happens. -/
theorem keyTurn_cut (hnul : ∃ kv ∈ record, ¬ NoNul kv.value) :
    ∃ g', keyTurn nosql mysql obj (g, "") (obj.objectName ++ ":" ++ v) = some (g', "") ∧
      SaveState obj t g₀ (done ++ [obj.objectName ++ ":" ++ v]) g' := by
  obtain ⟨t', hdb, hsaved⟩ := hstate.table
  have hkey := h.isOneColumn hfits ht
  have hnone := h.recordKey_ne hfits ht hnul
  have hword : ∀ kv ∈ record, IsWord (obj.getTblFieldName kv.field) :=
    fun kv hkv ↦ (h.isName hfits kv hkv).1
  rw [← hstate.nosql] at hlist
  rw [← hstate.config] at hfound
  by_cases hrow : ∃ row ∈ t.rows, keyText t.columns row = v
  · obtain ⟨row, hrow, rfl⟩ := hrow
    refine ⟨_, keyTurn_counted hmysql hfits hfound (h.verbatim hfits ht) h.key_ne h.noColon hdb
      (count_of_saved ht hkey hsaved hrow) hlist (h.ne_nil hfits ht) (h.allMapped hfits)
      (if_pos rfl), hstate.skip rfl rfl ?_ hnone⟩
    exact setDataToDb_of_ends hmysql
      (ends_updateText hword hfits.tableName.1 (h.isPlain ht) hnul _) _
  · refine ⟨_, keyTurn_counted hmysql hfits hfound (h.verbatim hfits ht) h.key_ne h.noColon hdb
      (count_of_saved_of_ne ht hkey hsaved fun row hmem heq ↦ hrow ⟨row, hmem, heq⟩) hlist
      (h.ne_nil hfits ht) (h.allMapped hfits) ((if_neg (by decide)).trans (if_pos rfl)),
      hstate.skip rfl rfl ?_ hnone⟩
    exact setDataToDb_of_ends hmysql (ends_insertText hword hfits.tableName.1 (h.isPlain ht) hnul) _

/-- **The turn for a record without a NUL.** Its row is updated. -/
theorem keyTurn_whole (hnul : ∀ kv ∈ record, NoNul kv.value) :
    ∃ g', keyTurn nosql mysql obj (g, "") (obj.objectName ++ ":" ++ v) = some (g', "") ∧
      SaveState obj t g₀ (done ++ [obj.objectName ++ ":" ++ v]) g' := by
  obtain ⟨t', hdb, hsaved⟩ := hstate.table
  have hkey := h.isOneColumn hfits ht
  have hstored : ∀ p ∈ t.columns.zip r, NoNul (storedText p.1 p.2) := fun p hp ↦
    hnul _ ((h.read _).2 (List.mem_map_of_mem hp))
  have hsame : keyText t.columns r = v := by
    rw [← h.cStr_keyText hfits, cStr_eq_self.2 (noNul_keyText ht h.mem hkey hstored)]
  have hwritten : WrittenBack obj t r :=
    h.last.writtenBack hfits h.mapped h.key_ne h.noColon hsame hstored
  obtain ⟨t'', hupdate, hsaved'⟩ := hsaved.update hfits ht h.mem hwritten h.nodup h.read
  have hback := hsaved.takesBack hfits ht hdb h.mem hwritten h.nodup h.read
  rw [hsame] at hupdate hback
  rw [recordKey_of_writtenBack hfits ht h.mem hwritten, hsame] at hsaved'
  have hvalues : ∀ kv ∈ record, Verbatim kv.value := fun kv hkv ↦
    ⟨(h.isPlain ht kv hkv).isKept, hnul kv hkv⟩
  have hstatement := (read_updateText_iff (h.ne_nil hfits ht) (h.isName hfits) hfits.tableName
    hfits.tblKeyName).2 ⟨hvalues, h.verbatim hfits ht⟩
  have hcount : t'.count obj.tblKeyName v = some 1 := hsame ▸ count_of_saved ht hkey hsaved h.mem
  rw [← hstate.nosql] at hlist
  rw [← hstate.config] at hfound
  refine ⟨_, keyTurn_counted hmysql hfits hfound (h.verbatim hfits ht) h.key_ne h.noColon hdb
    hcount hlist (h.ne_nil hfits ht) (h.allMapped hfits) (if_pos rfl), hstate.config, hstate.nosql,
    ?_, t'', ?_, hsaved'⟩
  · intro name hne
    rw [setDataToDb_of_update hmysql hstatement hback hdb hupdate]
    exact (Function.update_of_ne hne _ _).trans (hstate.others name hne)
  · rw [setDataToDb_of_update hmysql hstatement hback hdb hupdate]
    exact Function.update_self _ _ _

end RecordRead

/-- **The turn for the record of a row.** The count is 1, the `update` is built and executed, and
the row has its record in the table. Every other row and table is as before. -/
theorem keyTurn_record (hmysql : mysql.Executes reserved) (hnosql : nosql.Faithful contents)
    (hfits : obj.Fits reserved) (ht : TableFits obj t) (hmapped : Mapped obj t.columns)
    (hfound : g₀.config.getTableObjectMapByTblname obj.tableName = some obj)
    (hv : v ≠ "") (hcolon : ':' ∉ v.toList) (hr : r ∈ t.rows)
    (hlast : IsLast obj t.columns t.rows (obj.objectName ++ ":" ++ v) r)
    (hrecord : (contents g₀.nosql (obj.objectName ++ ":" ++ v)).IsRecord
      (obj.record t.columns r))
    (hstate : SaveState obj t g₀ done g) :
    ∃ g', keyTurn nosql mysql obj (g, "") (obj.objectName ++ ":" ++ v) = some (g', "") ∧
      SaveState obj t g₀ (done ++ [obj.objectName ++ ":" ++ v]) g' := by
  obtain ⟨hnodup, hread⟩ := getDataCacheAll_of_isRecord hnosql hrecord
  have h : RecordRead obj t v r _ := ⟨hmapped, hv, hcolon, hr, hlast, hnodup, hread⟩
  by_cases hnul : ∃ kv ∈ nosql.getDataCacheAll g₀.nosql (obj.objectName ++ ":" ++ v),
      ¬ NoNul kv.value
  · exact h.keyTurn_cut hfits ht hmysql hfound rfl hstate hnul
  · exact h.keyTurn_whole hfits ht hmysql hfound rfl hstate fun kv hkv ↦
      by_contra fun hvalue ↦ hnul ⟨kv, hkv, hvalue⟩

end Turn

end QCLib
