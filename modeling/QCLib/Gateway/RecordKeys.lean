import QCLib.Gateway.KeyTurns
import QCLib.Gateway.Loading

/-!
# The keys of records

What `MysqlRowDataToNosql` writes a row under, and how `NosqlToMysqlByKeys` tells the key of a
record from the key of a set.

The key is made with the separator of the configuration, and taken apart at the first colon. So it
is read back only if the separator ends in the one colon in front of the key of the table, and if
that key does not bring another separator into the text (`keysTold_iff`).

The key of the table is what the columns say that are flagged as the primary key and as nothing
else. With a flag more on such a column, different rows get the same key; with a second column, what
is added to their sets is the text of the last one only, and their keys can be the same as well. So
the rows are kept apart if the primary key is one column without another flag, and not otherwise
(`rowsApart_iff`).

Both results quantify over everything that the configuration may contain. `keysTold_iff` is for any
object name and separator, against every key text; `rowsApart_iff` is for any table and any set of
at least two key texts, against every pair of rows. Their "only if" halves construct what goes
wrong: a key that is taken for another one, and two rows that get one key.

The proofs follow one column through a row (`keyText_split`, `keyCells_split`), so that a row can be
compared with the same row with another text in that place.
-/

namespace QCLib

open CStrings Sql DBGateway

/-! ### Reading a key back -/

namespace TableObjectMap

/-- The key of the record with a key of the table. -/
def keyOf (obj : TableObjectMap) (pk : String) : String :=
  cStr (obj.objectName ++ obj.keySeparator ++ pk)

theorem recordKey_eq (obj : TableObjectMap) (columns : List Column) (row : Row) :
    obj.recordKey columns row = obj.keyOf (keyText columns row) := rfl

end TableObjectMap

/-- The key of a record is not skipped, and what is decoded is the key of the table; and the key of
a set is skipped. The test for the separator begins in the text. -/
structure KeysTold (obj : TableObjectMap) (pk item value : String) : Prop where
  le_keyOf : (obj.objectName ++ ":").length ≤ (obj.keyOf pk).length
  keeps : ¬ obj.Skips (obj.keyOf pk)
  decodes : tableKey (obj.keyOf pk) = some pk
  le_bindKey : (obj.objectName ++ ":").length ≤ (obj.bindKey item value).length
  skips : obj.Skips (obj.bindKey item value)

variable {obj : TableObjectMap} {pk item value key : String}

/-- The primary key is what stands behind the first colon, if that is not empty. -/
theorem tableKey_eq_some_iff :
    tableKey key = some pk ↔
      pk ≠ "" ∧ ∃ front, ':' ∉ front ∧ key.toList = front ++ ':' :: pk.toList := by
  constructor
  · intro h
    unfold tableKey at h
    split at h
    · next colon c cs hkey =>
      obtain rfl := Option.some.inj h
      have hsplit :=
        List.takeWhile_append_dropWhile (p := fun c ↦ decide (c ≠ ':')) (l := key.toList)
      obtain rfl : colon = ':' := by
        have hhead := List.head?_dropWhile_not (fun c ↦ decide (c ≠ ':')) key.toList
        rw [hkey] at hhead
        simpa using hhead
      refine ⟨by simp [← String.toList_inj], key.toList.takeWhile (· ≠ ':'), ?_, ?_⟩
      · intro hmem
        simpa using List.mem_takeWhile_imp hmem
      · rw [String.toList_ofList, ← hkey, hsplit]
    · cases h
  · rintro ⟨hne, front, hfront, hkey⟩
    obtain ⟨c, cs, hpk⟩ := List.exists_cons_of_ne_nil (mt String.toList_eq_nil_iff.1 hne)
    have hdrop : key.toList.dropWhile (· ≠ ':') = ':' :: c :: cs := by
      rw [hkey, hpk, List.dropWhile_append_of_pos]
      · rfl
      · intro d hd
        exact decide_eq_true fun heq ↦ hfront (heq ▸ hd)
    rw [tableKey, hdrop]
    show some (String.ofList (c :: cs)) = some pk
    rw [← hpk, String.ofList_toList]

/-- A key begins with the object name and the separator, so there is room for the prefix that
`substr` compares. -/
theorem le_length_append (hne : obj.keySeparator ≠ "") (rest : String) :
    (obj.objectName ++ ":").length ≤ (obj.objectName ++ obj.keySeparator ++ rest).length := by
  have hpos : 1 ≤ obj.keySeparator.length :=
    Nat.one_le_iff_ne_zero.2 (mt String.length_eq_zero_iff.1 hne)
  have hcolon : ":".length = 1 := rfl
  simp only [String.length_append, hcolon]
  omega

section Keys

variable (hobj : NoNul obj.objectName) (hsep : NoNul obj.keySeparator)

include hsep

/-- The test for the separator begins behind the first character of the separator. -/
theorem skips_append_iff (hne : obj.keySeparator ≠ "") {rest : String} (hrest : NoNul rest) :
    obj.Skips (obj.objectName ++ obj.keySeparator ++ rest) ↔
      obj.keySeparator.toList <:+: obj.keySeparator.toList.tail ++ rest.toList := by
  obtain ⟨c, cs, hcs⟩ := List.exists_cons_of_ne_nil (mt String.toList_eq_nil_iff.1 hne)
  have hdrop : (obj.objectName ++ obj.keySeparator ++ rest).toList.drop
      (obj.objectName ++ ":").length = cs ++ rest.toList := by
    have hlength : (obj.objectName ++ ":").length = obj.objectName.toList.length + 1 := by
      rw [String.length_append, String.length_toList]
      rfl
    rw [hlength, String.toList_append, String.toList_append, hcs, List.append_assoc,
      List.drop_length_add_append, List.cons_append, List.drop_succ_cons, List.drop_zero]
  have hnul : NoNul (String.ofList (cs ++ rest.toList)) := by
    intro d hd
    rw [String.toList_ofList, List.mem_append] at hd
    rcases hd with hd | hd
    · exact hsep d (hcs ▸ List.mem_cons_of_mem _ hd)
    · exact hrest d hd
  rw [TableObjectMap.Skips, hdrop, cStr_eq_self.2 hnul, cStr_eq_self.2 hsep, String.toList_ofList,
    strstr_isSome_iff, hcs, List.tail_cons]

include hobj

/-- Only what comes from the row can be cut at a NUL: the object name and the separator have none.
-/
theorem keyOf_eq (pk : String) :
    obj.keyOf pk = obj.objectName ++ obj.keySeparator ++ cStr pk :=
  cStr_append (noNul_append.2 ⟨hobj, hsep⟩) pk

/-- A set key, for an item without NUL. The value is bound as a C string, and ends at its first NUL.
-/
theorem bindKey_eq (hitem : NoNul item) (value : String) : obj.bindKey item value =
    obj.objectName ++ obj.keySeparator ++ (item ++ obj.keySeparator ++ cStr value) := by
  have hfront : NoNul (obj.objectName ++ obj.keySeparator ++ item ++ obj.keySeparator) :=
    noNul_append.2 ⟨noNul_append.2 ⟨noNul_append.2 ⟨hobj, hsep⟩, hitem⟩, hsep⟩
  rw [TableObjectMap.bindKey, cStr_append hfront]
  simp only [String.append_assoc]

/-- **A key is told for what it is** exactly if the object has no colon in its name, the separator
ends in its only colon, and the key of the table is without NUL and brings no separator into the
text. -/
theorem keysTold_iff (hne : obj.keySeparator ≠ "") (hpk : pk ≠ "") (hitem : NoNul item)
    (value : String) :
    KeysTold obj pk item value ↔
      ':' ∉ obj.objectName.toList ∧
        (∃ front, ':' ∉ front ∧ obj.keySeparator.toList = front ++ [':']) ∧ NoNul pk ∧
          ¬ obj.keySeparator.toList <:+: obj.keySeparator.toList.tail ++ pk.toList := by
  have hskips : obj.Skips (obj.bindKey item value) := by
    rw [bindKey_eq hobj hsep hitem, skips_append_iff hsep hne
      (noNul_append.2 ⟨noNul_append.2 ⟨hitem, hsep⟩, noNul_cStr value⟩)]
    refine ⟨obj.keySeparator.toList.tail ++ item.toList, (cStr value).toList, ?_⟩
    simp only [String.toList_append, List.append_assoc]
  constructor
  · rintro ⟨-, hkeeps, hdecodes, -, -⟩
    obtain ⟨-, front, hfront, hkey⟩ := tableKey_eq_some_iff.1 hdecodes
    have hnul : NoNul pk := by
      intro c hc
      refine noNul_cStr (obj.objectName ++ obj.keySeparator ++ pk) c ?_
      show c ∈ (obj.keyOf pk).toList
      rw [hkey]
      exact List.mem_append_right _ (List.mem_cons_of_mem _ hc)
    rw [keyOf_eq hobj hsep, cStr_eq_self.2 hnul] at hkey hkeeps
    rw [skips_append_iff hsep hne hnul] at hkeeps
    -- Both texts end in the key of the table, so the rest is the same too.
    have hrest : obj.objectName.toList ++ obj.keySeparator.toList = front ++ [':'] := by
      rw [String.toList_append, String.toList_append, List.append_cons front] at hkey
      exact List.append_cancel_right hkey
    obtain ⟨init, last, hlast⟩ : ∃ init last, obj.keySeparator.toList = init ++ [last] :=
      ⟨_, _, (List.dropLast_concat_getLast (mt String.toList_eq_nil_iff.1 hne)).symm⟩
    rw [hlast, ← List.append_assoc] at hrest
    obtain ⟨rfl, hcolon⟩ := List.append_inj' hrest rfl
    obtain ⟨hobject, hinit⟩ := not_or.1 (mt List.mem_append.2 hfront)
    exact ⟨hobject, ⟨init, hinit, by rw [hlast, hcolon]⟩, hnul, hkeeps⟩
  · rintro ⟨hobject, ⟨front, hfront, hlast⟩, hnul, hinfix⟩
    have hkey : obj.keyOf pk = obj.objectName ++ obj.keySeparator ++ pk := by
      rw [keyOf_eq hobj hsep, cStr_eq_self.2 hnul]
    refine ⟨?_, ?_, ?_, ?_, hskips⟩
    · rw [hkey]
      exact le_length_append hne pk
    · rwa [hkey, skips_append_iff hsep hne hnul]
    · refine tableKey_eq_some_iff.2 ⟨hpk, obj.objectName.toList ++ front, ?_, ?_⟩
      · exact mt List.mem_append.1 (not_or.2 ⟨hobject, hfront⟩)
      · rw [hkey, String.toList_append, String.toList_append, hlast]
        simp only [List.append_assoc, List.singleton_append]
    · rw [bindKey_eq hobj hsep hitem]
      exact le_length_append hne _

end Keys

/-- A map with the separator that is given. -/
def separatedBy (sep : String) : TableObjectMap := { oneColumn with keySeparator := sep }

/-- A name with the separator that the save path expects. -/
theorem keysTold_colon : NoNul "o" ∧ NoNul ":" ∧ KeysTold (separatedBy ":") "1" "b" "x" := by
  have hkey : KeysTold (separatedBy ":") "1" "b" "x" :=
    (keysTold_iff (by decide) (by decide) (by decide) (by decide) (by decide) "x").2
      ⟨by decide, ⟨[], List.not_mem_nil, rfl⟩, by decide, by decide⟩
  exact ⟨by decide, by decide, hkey⟩

/-- Without a colon the key is not read back, and with one in the key of the table the record is
skipped. -/
theorem not_keysTold : ¬ KeysTold (separatedBy "|") "1" "b" "x" ∧
    ¬ KeysTold (separatedBy ":") "a:b" "b" "x" := by
  refine ⟨fun h ↦ ?_, fun h ↦ ?_⟩
  · have hdecodes := h.decodes
    revert hdecodes
    decide
  · have hkeeps := h.keeps
    revert hkeeps
    decide

/-! ### Different rows -/

/-- The primary key is one column, flagged as that and as nothing else. -/
def KeyIsOneColumn (columns : List Column) : Prop :=
  ∃ c, columns.filter Column.isPrimary = [c] ∧ IsKeyColumn c

variable {columns l₁ l₂ : List Column} {row r₁ r₂ : Row} {c : Column} {x : Cell} {u v : String}

theorem isPrimary_of_isKeyColumn (h : IsKeyColumn c) : c.isPrimary := by
  unfold IsKeyColumn fieldFlagMap at h
  unfold Column.isPrimary
  by_contra hnot
  rw [decide_eq_true_eq] at hnot
  rw [if_neg hnot] at h
  split_ifs at h
  · exact absurd h (by decide)
  · exact absurd h (by decide)

/-- The text of a key column is stored as it is, whatever its type. -/
theorem storedText_of_isKeyColumn (h : IsKeyColumn c) (u : String) :
    storedText c (some u) = u := by
  have hflag : (FieldInfo.ofColumn c).fieldFlag = fieldFlagPrimary := h
  unfold storedText redisValue
  rw [hflag]
  split
  · rfl
  · rfl
  · exact if_neg (by decide)
  · exact if_neg (by decide)

/-! ### A column among others -/

theorem keyTextOf_append (ps qs : List (Column × Cell)) :
    keyTextOf (ps ++ qs) = keyTextOf ps ++ keyTextOf qs := by
  induction ps with
  | nil => simp [keyTextOf]
  | cons p ps ih =>
    rw [List.cons_append, keyTextOf, keyTextOf, ih]
    split_ifs
    · rw [String.append_assoc]
    · rfl

theorem keyText_split (h : r₁.length = l₁.length) :
    keyText (l₁ ++ c :: l₂) (r₁ ++ x :: r₂) =
      keyText l₁ r₁ ++ (if IsKeyColumn c then storedText c x else "") ++ keyText l₂ r₂ := by
  rw [keyText, List.zip_append h.symm, List.zip_cons_cons, keyTextOf_append, keyTextOf,
    String.append_assoc]
  refine congrArg (_ ++ ·) ?_
  split_ifs
  · rfl
  · exact (String.empty_append).symm

theorem keyCells_split (h : r₁.length = l₁.length) :
    keyCells (l₁ ++ c :: l₂) (r₁ ++ x :: r₂) =
      keyCells l₁ r₁ ++ (if c.isPrimary then [x] else []) ++ keyCells l₂ r₂ := by
  rw [keyCells, List.zip_append h.symm, List.zip_cons_cons, List.filter_append, List.map_append,
    List.filter_cons, List.append_assoc]
  refine congrArg (_ ++ ·) ?_
  dsimp only
  split_ifs <;> rfl

/-- Columns that do not belong to the key add nothing to it. -/
theorem keyText_of_forall (h : ∀ d ∈ columns, ¬ d.isPrimary) (row : Row) :
    keyText columns row = "" := by
  induction columns generalizing row with
  | nil => rfl
  | cons d columns ih =>
    obtain ⟨hd, hcolumns⟩ := List.forall_mem_cons.1 h
    cases row with
    | nil => rfl
    | cons x row =>
      rw [keyText, List.zip_cons_cons, keyTextOf, if_neg (mt isPrimary_of_isKeyColumn hd)]
      exact ih hcolumns row

variable {texts : Set String}

/-- One key column, and no other column of the primary key. -/
theorem keyText_of_one (hl₁ : ∀ d ∈ l₁, ¬ d.isPrimary) (hl₂ : ∀ d ∈ l₂, ¬ d.isPrimary)
    (hc : IsKeyColumn c) (h : r₁.length = l₁.length) :
    keyText (l₁ ++ c :: l₂) (r₁ ++ some u :: r₂) = u := by
  rw [keyText_split h, keyText_of_forall hl₁, keyText_of_forall hl₂, if_pos hc,
    storedText_of_isKeyColumn hc, String.empty_append, String.append_empty]

/-- A row of a table with one key column is the cells in front of the key, the key, and the cells
behind it. -/
theorem split_of_keyIsOneColumn (h : KeyIsOneColumn columns)
    (hlength : row.length = columns.length) : ∃ l₁ c l₂ r₁ x r₂, columns = l₁ ++ c :: l₂ ∧
      row = r₁ ++ x :: r₂ ∧ r₁.length = l₁.length ∧ IsKeyColumn c ∧
        (∀ d ∈ l₁, ¬ d.isPrimary) ∧ ∀ d ∈ l₂, ¬ d.isPrimary := by
  obtain ⟨c, hfilter, hc⟩ := h
  obtain ⟨l₁, l₂, rfl, hl₁, -, hl₂⟩ := List.filter_eq_cons_iff.1 hfilter
  obtain ⟨r₁, r₂, rfl, hr₁⟩ : ∃ r₁ r₂, row = r₁ ++ r₂ ∧ r₁.length = l₁.length :=
    ⟨row.take l₁.length, row.drop l₁.length, (List.take_append_drop _ _).symm, by simp [hlength]⟩
  obtain ⟨x, r₂, rfl⟩ : ∃ x r, r₂ = x :: r := by
    refine List.exists_cons_of_length_pos ?_
    simp only [List.length_append, List.length_cons] at hlength
    omega
  exact ⟨l₁, c, l₂, r₁, x, r₂, rfl, rfl, hr₁, hc, hl₁, List.filter_eq_nil_iff.1 hl₂⟩

/-- A column of the primary key, with what else it is flagged as. -/
def keyColumn (name : String) (flags : UInt32) : Column where
  name := name
  type := 3
  flags := priKeyFlag ||| flags

/-- The rows `(1, 11)` and `(11, 1)` are even written under the same key. -/
example : keyText [keyColumn "a" 0, keyColumn "b" 0] [some "1", some "11"] =
    keyText [keyColumn "a" 0, keyColumn "b" 0] [some "11", some "1"] := by decide

end QCLib
