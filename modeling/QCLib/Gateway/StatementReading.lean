import QCLib.Gateway.KeyTurns

/-!
# What MySQL reads in the statements

`InsertRowToMysql` and `UpdateRowMysql` put the values of a record between quotes as they are. What
a server reads in such a text, up to the first NUL, is the statement that is meant exactly if no
value has a quote or a NUL in it, or a backslash but in front of a `%` or a `_` (`statements_iff`):
any other special character makes a literal shorter, and nothing that comes behind it makes up for
that. There is a `ConvertToEscapeData`, but it is not called.

The text is taken apart in the order in which it was put together: the keyword and the table, the
list of assignments or of names and values, and the condition. Each part has a lemma which says that
it is read back and leaves the rest to be read, if and only if its values are `Verbatim`. The "only
if" is the harder half: a literal that ends too early could be made up for by what follows it, and
`Leads` is used to show that it is not.
-/

namespace QCLib

open CStrings Sql DBGateway

variable {cs ds rest : List Char} {c : Char} {v w : String} {tokens : List Sql.Token}

/-! ### Up to a NUL -/

/-- The characters of a C string. -/
def untilNul (cs : List Char) : List Char := cs.takeWhile (· ≠ '\x00')

/-- The characters of a C string are those up to the first NUL. -/
theorem toList_cStr (s : String) : (cStr s).toList = untilNul s.toList := String.toList_ofList

@[simp] theorem untilNul_nil : untilNul [] = [] := rfl

theorem untilNul_cons (hc : c ≠ '\x00') (rest : List Char) :
    untilNul (c :: rest) = c :: untilNul rest :=
  List.takeWhile_cons_of_pos (decide_eq_true hc)

theorem untilNul_append (hv : NoNul v) (rest : List Char) :
    untilNul (v.toList ++ rest) = v.toList ++ untilNul rest :=
  List.takeWhile_append_of_pos fun c hc ↦ decide_eq_true (hv c hc)

theorem length_untilNul_lt (hv : ¬ NoNul v) : (untilNul v.toList).length < v.toList.length := by
  refine lt_of_le_of_ne (List.takeWhile_prefix _).length_le fun heq ↦ ?_
  exact hv fun c hc ↦ of_decide_eq_true
    (List.takeWhile_eq_self_iff.1 ((List.takeWhile_prefix _).eq_of_length heq) c hc)

/-- What stands behind a NUL does not reach the server. -/
theorem untilNul_append_of_not (hv : ¬ NoNul v) (rest : List Char) :
    untilNul (v.toList ++ rest) = untilNul v.toList := by
  have hlength := (length_untilNul_lt hv).ne
  unfold untilNul at hlength ⊢
  rw [List.takeWhile_append, if_neg hlength]

/-! ### Tokens -/

/-- A text that arrives as it is: it has no quote, no NUL, and no backslash but in front of a `%` or
a `_`. -/
def Verbatim (v : String) : Prop := IsKept v ∧ NoNul v

instance (v : String) : Decidable (Verbatim v) := inferInstanceAs (Decidable (_ ∧ _))

theorem lex_untilNul_space (rest : List Char) :
    lex .blank (untilNul (' ' :: rest)) = lex .blank (untilNul rest) := by
  rw [untilNul_cons (by decide), lex_space]

/-- A symbol is read by itself, and the rest is read as if it stood alone. -/
theorem lex_untilNul_symbol_iff (hstart : Mode.start c = ([.symbol c], .blank)) (hc : c ≠ '\x00') :
    lex .blank (untilNul (c :: rest)) = some (.symbol c :: tokens) ↔
      lex .blank (untilNul rest) = some tokens := by
  rw [untilNul_cons hc, lex_symbol hstart, Option.map_eq_some_iff]
  simp

/-- A word ends at the first character that cannot stand in one. -/
theorem lex_untilNul_word_iff (hw : IsWord w) (hc : isWordChar c = false) (hnul : c ≠ '\x00') :
    lex .blank (untilNul (w.toList ++ c :: rest)) = some (.word w :: tokens) ↔
      lex .blank (untilNul (c :: rest)) = some tokens := by
  rw [untilNul_append (noNul_of_isWord hw), untilNul_cons hnul, lex_word hw hc,
    Option.map_eq_some_iff]
  simp

/-- A literal is cut if there is a NUL in it, and then it is not long enough. -/
theorem lex_untilNul_literal_iff (hc : c ≠ '\'' ∧ c ≠ '\\') (hnul : c ≠ '\x00') :
    lex .blank (untilNul ('\'' :: (v.toList ++ '\'' :: c :: rest))) = some (.literal v :: tokens) ↔
      Verbatim v ∧ lex .blank (untilNul (c :: rest)) = some tokens := by
  rw [untilNul_cons (by decide)]
  by_cases hv : NoNul v
  · rw [untilNul_append hv, untilNul_cons (by decide), untilNul_cons hnul, lex_literal_iff hc,
      Verbatim, and_iff_left hv]
  · rw [untilNul_append_of_not hv]
    refine iff_of_false (fun h ↦ ?_) fun h ↦ hv h.1.2
    exact absurd (length_le_of_lex_literal h) (Nat.not_le.2 (length_untilNul_lt hv))

/-! ### The parts of a statement -/

variable {reserved : String → Bool} {obj : TableObjectMap} {record : List KeyValue}
  {tblname keyname tblKey : String}

/-- The assignments that a record stands for. -/
def assignmentsOf (obj : TableObjectMap) (record : List KeyValue) : List (String × String) :=
  record.map fun kv ↦ (obj.getTblFieldName kv.field, kv.value)

/-- The columns that the fields are mapped to. -/
def columnsOf (obj : TableObjectMap) (record : List KeyValue) : List String :=
  record.map fun kv ↦ obj.getTblFieldName kv.field

theorem toList_whereKey : (whereKey keyname tblKey).toList = ' ' :: ("where".toList ++ ' ' ::
    (keyname.toList ++ ' ' :: '=' :: ' ' :: '\'' :: (tblKey.toList ++ ['\'', ';']))) := by
  simp [whereKey, String.toList_append]

/-- The condition at the end of a statement is read back if and only if the key is verbatim. -/
theorem lex_where_iff (hkeyname : IsWord keyname) :
    lex .blank (untilNul (whereKey keyname tblKey).toList) = some (whereTokens keyname tblKey) ↔
      Verbatim tblKey := by
  rw [toList_whereKey, whereTokens, lex_untilNul_space,
    lex_untilNul_word_iff (by decide) rfl (by decide), lex_untilNul_space,
    lex_untilNul_word_iff hkeyname rfl (by decide), lex_untilNul_space,
    lex_untilNul_symbol_iff rfl (by decide), lex_untilNul_space,
    lex_untilNul_literal_iff (by decide) (by decide)]
  exact and_iff_left rfl

/-- **Pieces with commas between them**, when it is known what is read in a piece before a comma and
before what comes last. -/
theorem lex_intercalate_iff {α : Type} {text : α → String} {token : α → List Sql.Token}
    {P : α → Prop} {stop : Char} {xs : List α} (hne : xs ≠ [])
    (hpiece : ∀ x ∈ xs, ∀ c ∈ [',', stop], ∀ rest tokens,
      lex .blank (untilNul ((text x).toList ++ c :: rest)) = some (token x ++ tokens) ↔
        P x ∧ lex .blank (untilNul (c :: rest)) = some tokens) :
    lex .blank (untilNul ((",".intercalate (xs.map text)).toList ++ stop :: rest)) =
        some ([Sql.Token.symbol ','].intercalate (xs.map token) ++ tokens) ↔
      (∀ x ∈ xs, P x) ∧ lex .blank (untilNul (stop :: rest)) = some tokens := by
  induction xs with
  | nil => exact absurd rfl hne
  | cons x xs ih =>
    obtain ⟨hx, hpiece⟩ := List.forall_mem_cons.1 hpiece
    rw [List.forall_mem_cons, and_assoc, List.map_cons, List.map_cons]
    rcases eq_or_ne xs [] with rfl | hne
    · have htext : ",".intercalate [text x] = text x := rfl
      have htokens : [Sql.Token.symbol ','].intercalate [token x] = token x := List.append_nil _
      rw [List.map_nil, List.map_nil, htext, htokens, hx stop (by simp)]
      simp
    · rw [intercalate_cons (by simpa using hne),
        List.intercalate_cons_of_ne_nil (by simpa using hne), String.toList_append,
        String.toList_append]
      simp only [List.append_assoc]
      have hcomma : (",").toList = [','] := rfl
      rw [hcomma, List.singleton_append, List.singleton_append, hx ',' (by simp),
        lex_untilNul_symbol_iff rfl (by decide), ih hne hpiece]

/-- The tokens of the assignments, with commas between them, as the text has them. -/
theorem assignmentTokens_eq (assignments : List (String × String)) :
    assignmentTokens assignments = [Sql.Token.symbol ','].intercalate
      (assignments.map fun a ↦ [.word a.1, .symbol '=', .literal a.2]) := by
  induction assignments with
  | nil => rfl
  | cons a assignments ih =>
    cases assignments with
    | nil => rfl
    | cons b assignments =>
      rw [List.map_cons, List.intercalate_cons_of_ne_nil (by simp), ← ih]
      rfl

/-- The tokens of a list in brackets, with commas between the pieces. -/
theorem listTokens_eq (piece : String → Sql.Token) (texts : List String) :
    listTokens piece texts =
      [Sql.Token.symbol ','].intercalate (texts.map fun text ↦ [piece text]) ++ [.symbol ')'] := by
  induction texts with
  | nil => rfl
  | cons text texts ih =>
    cases texts with
    | nil => rfl
    | cons b texts =>
      rw [List.map_cons, List.intercalate_cons_of_ne_nil (by simp), List.append_assoc,
        List.append_assoc, ← ih]
      rfl

/-- The assignments, with a space behind them, are read back if and only if every value is verbatim
and the rest is read back. -/
theorem lex_assignments_iff (hne : record ≠ [])
    (hnames : ∀ kv ∈ record, IsWord (obj.getTblFieldName kv.field)) :
    lex .blank (untilNul ((",".intercalate (record.map (assignmentText obj))).toList ++
        ' ' :: rest)) = some (assignmentTokens (assignmentsOf obj record) ++ tokens) ↔
      (∀ kv ∈ record, Verbatim kv.value) ∧ lex .blank (untilNul (' ' :: rest)) = some tokens := by
  rw [assignmentTokens_eq, assignmentsOf, List.map_map]
  refine lex_intercalate_iff hne fun kv hkv c hc rest tokens ↦ ?_
  have htext : (assignmentText obj kv).toList ++ c :: rest =
      (obj.getTblFieldName kv.field).toList ++
        '=' :: '\'' :: (kv.value.toList ++ '\'' :: c :: rest) := by
    simp [assignmentText, String.toList_append]
  have hplain : (c ≠ '\'' ∧ c ≠ '\\') ∧ c ≠ '\x00' := by
    simp only [List.mem_cons, List.not_mem_nil, or_false] at hc
    rcases hc with rfl | rfl <;> decide
  rw [htext]
  show lex .blank _ = some (.word _ :: .symbol '=' :: .literal kv.value :: tokens) ↔ _
  rw [lex_untilNul_word_iff (hnames kv hkv) rfl (by decide),
    lex_untilNul_symbol_iff rfl (by decide), lex_untilNul_literal_iff hplain.1 hplain.2]

/-- The names of an `insert` are words, so they are always read back, and it depends on the rest. -/
theorem lex_names_iff (hne : record ≠ [])
    (hnames : ∀ kv ∈ record, IsWord (obj.getTblFieldName kv.field)) :
    lex .blank (untilNul ((",".intercalate (columnsOf obj record)).toList ++ ')' :: rest)) =
        some (listTokens .word (columnsOf obj record) ++ tokens) ↔
      lex .blank (untilNul rest) = some tokens := by
  rw [listTokens_eq, columnsOf, List.map_map, List.append_assoc]
  refine (lex_intercalate_iff (P := fun _ ↦ True) hne fun kv hkv c hc rest tokens ↦ ?_).trans ?_
  · have hplain : isWordChar c = false ∧ c ≠ '\x00' := by
      simp only [List.mem_cons, List.not_mem_nil, or_false] at hc
      rcases hc with rfl | rfl <;> decide
    show lex .blank _ = some (.word _ :: tokens) ↔ _
    rw [lex_untilNul_word_iff (hnames kv hkv) hplain.1 hplain.2, true_and]
  · rw [List.singleton_append, lex_untilNul_symbol_iff rfl (by decide)]
    exact and_iff_right fun _ _ ↦ trivial

/-- The values of an `insert` are read back if and only if every one of them is verbatim and the
rest is read back. -/
theorem lex_values_iff (hne : record ≠ []) :
    lex .blank (untilNul ((",".intercalate (record.map valueText)).toList ++ ')' :: rest)) =
        some (listTokens .literal (record.map KeyValue.value) ++ tokens) ↔
      (∀ kv ∈ record, Verbatim kv.value) ∧ lex .blank (untilNul rest) = some tokens := by
  rw [listTokens_eq, List.map_map, List.append_assoc]
  refine (lex_intercalate_iff (P := fun kv ↦ Verbatim kv.value) hne
    fun kv _ c hc rest tokens ↦ ?_).trans ?_
  · have hplain : (c ≠ '\'' ∧ c ≠ '\\') ∧ c ≠ '\x00' := by
      simp only [List.mem_cons, List.not_mem_nil, or_false] at hc
      rcases hc with rfl | rfl <;> decide
    have htext : (valueText kv).toList ++ c :: rest =
        '\'' :: (kv.value.toList ++ '\'' :: c :: rest) := by
      simp [valueText, String.toList_append]
    rw [htext]
    exact lex_untilNul_literal_iff hplain.1 hplain.2
  · rw [List.singleton_append, lex_untilNul_symbol_iff rfl (by decide)]

/-! ### The statements -/

theorem toList_updateText (condition : String) : (updateText obj tblname record condition).toList =
    "update".toList ++ ' ' :: (tblname.toList ++ ' ' :: ("set".toList ++ ' ' ::
      ((",".intercalate (record.map (assignmentText obj))).toList ++
        ' ' :: condition.toList))) := by
  simp [updateText, String.toList_append]

theorem toList_insertText : (insertText obj tblname record).toList =
    "insert".toList ++ ' ' :: ("into".toList ++ ' ' :: (tblname.toList ++ '(' ::
      ((",".intercalate (columnsOf obj record)).toList ++ ')' :: ' ' ::
        ("values".toList ++ '(' ::
          ((",".intercalate (record.map valueText)).toList ++ ')' :: [';']))))) := by
  simp [insertText, columnsOf, String.toList_append]

section Statements

variable (hne : record ≠ [])
  (hnames : ∀ kv ∈ record, IsName reserved (obj.getTblFieldName kv.field))
  (htblname : IsName reserved tblname)

include hne hnames htblname

/-- **An `update`** is read as it is meant exactly if the values and the key arrive as they are. -/
theorem read_updateText_iff (hkeyname : IsName reserved keyname) :
    Sql.read reserved (cStr (updateText obj tblname record (whereKey keyname tblKey))) =
        some (.update tblname (assignmentsOf obj record) keyname tblKey) ↔
      (∀ kv ∈ record, Verbatim kv.value) ∧ Verbatim tblKey := by
  have hproper : (Statement.update tblname (assignmentsOf obj record) keyname tblKey).IsProper := by
    show assignmentsOf obj record ≠ []
    simpa [assignmentsOf] using hne
  have hreserved : ∀ name ∈ (Statement.update tblname (assignmentsOf obj record) keyname
      tblKey).names, reserved name = false := by
    refine List.forall_mem_cons.2 ⟨htblname.2, List.forall_mem_cons.2 ⟨hkeyname.2, ?_⟩⟩
    rw [assignmentsOf, List.map_map]
    exact List.forall_mem_map.2 fun kv hkv ↦ (hnames kv hkv).2
  rw [read_eq_some_iff hproper hreserved, toList_cStr, toList_updateText]
  show lex .blank _ = some (.word "update" :: .word tblname :: .word "set" ::
    (assignmentTokens (assignmentsOf obj record) ++ whereTokens keyname tblKey)) ↔ _
  rw [lex_untilNul_word_iff (by decide) rfl (by decide), lex_untilNul_space,
    lex_untilNul_word_iff htblname.1 rfl (by decide), lex_untilNul_space,
    lex_untilNul_word_iff (by decide) rfl (by decide), lex_untilNul_space,
    lex_assignments_iff hne fun kv hkv ↦ (hnames kv hkv).1, lex_untilNul_space,
    lex_where_iff hkeyname.1]

/-- **An `insert`** is read as it is meant exactly if the values arrive as they are. -/
theorem read_insertText_iff :
    Sql.read reserved (cStr (insertText obj tblname record)) =
        some (.insert tblname (columnsOf obj record) (record.map KeyValue.value)) ↔
      ∀ kv ∈ record, Verbatim kv.value := by
  have hproper : (Statement.insert tblname (columnsOf obj record)
      (record.map KeyValue.value)).IsProper := by
    show columnsOf obj record ≠ [] ∧ record.map KeyValue.value ≠ []
    simpa [columnsOf] using hne
  have hreserved : ∀ name ∈ (Statement.insert tblname (columnsOf obj record)
      (record.map KeyValue.value)).names, reserved name = false :=
    List.forall_mem_cons.2 ⟨htblname.2, List.forall_mem_map.2 fun kv hkv ↦ (hnames kv hkv).2⟩
  have htokens : (Statement.insert tblname (columnsOf obj record)
      (record.map KeyValue.value)).tokens = .word "insert" :: .word "into" :: .word tblname ::
        .symbol '(' :: (listTokens .word (columnsOf obj record) ++
          .word "values" :: .symbol '(' ::
            (listTokens .literal (record.map KeyValue.value) ++ [.symbol ';'])) := by
    simp [Statement.tokens]
  rw [read_eq_some_iff hproper hreserved, toList_cStr, toList_insertText, htokens,
    lex_untilNul_word_iff (by decide) rfl (by decide), lex_untilNul_space,
    lex_untilNul_word_iff (by decide) rfl (by decide), lex_untilNul_space,
    lex_untilNul_word_iff htblname.1 rfl (by decide), lex_untilNul_symbol_iff rfl (by decide),
    lex_names_iff hne fun kv hkv ↦ (hnames kv hkv).1, lex_untilNul_space,
    lex_untilNul_word_iff (by decide) rfl (by decide), lex_untilNul_symbol_iff rfl (by decide),
    lex_values_iff hne]
  exact and_iff_left rfl

/-- **The statements of the gateway** say what the record and the key say exactly if all the texts
that are put into them arrive as they are. -/
theorem statements_iff {config : ConfigIndexMap}
    (hobj : config.getTableObjectMapByTblname tblname = some obj)
    (hkeyname : IsName reserved keyname) (sqlstr tblKey : String) :
    (Sql.read reserved (cStr (updateRowMysql config tblname record sqlstr
          (whereKey keyname tblKey))) =
        some (.update tblname (assignmentsOf obj record) keyname tblKey) ↔
      (∀ kv ∈ record, Verbatim kv.value) ∧ Verbatim tblKey) ∧
    (Sql.read reserved (cStr (insertRowToMysql config tblname record sqlstr)) =
        some (.insert tblname (columnsOf obj record) (record.map KeyValue.value)) ↔
      ∀ kv ∈ record, Verbatim kv.value) := by
  have hmapped : AllMapped obj record := fun kv hkv ↦
    mt String.toList_eq_nil_iff.2 (hnames kv hkv).1.1
  rw [updateRowMysql_of_mapped hobj hmapped hne, insertRowToMysql_of_mapped hobj hmapped hne]
  exact ⟨read_updateText_iff hne hnames htblname hkeyname,
    read_insertText_iff hne hnames htblname⟩

end Statements

theorem oneColumn_field : oneColumn.getTblFieldName "f" = "k" := by
  simp [oneColumn, TableObjectMap.getTblFieldName]

/-- Both statements for a record with one field, as the server reads them. -/
theorem statements_oneColumn :
    Sql.read (fun _ ↦ false) (cStr (updateRowMysql oneColumnGateway.config "t" [⟨"f", "x"⟩] ""
        (whereKey "k" "1"))) = some (.update "t" (assignmentsOf oneColumn [⟨"f", "x"⟩]) "k" "1") ∧
      Sql.read (fun _ ↦ false)
          (cStr (insertRowToMysql oneColumnGateway.config "t" [⟨"f", "x"⟩] "")) =
        some (.insert "t" (columnsOf oneColumn [⟨"f", "x"⟩]) ["x"]) := by
  have hnames : ∀ kv ∈ [KeyValue.mk "f" "x"],
      IsName (fun _ ↦ false) (oneColumn.getTblFieldName kv.field) := by
    rw [List.forall_mem_singleton, oneColumn_field]
    decide
  obtain ⟨hupdate, hinsert⟩ := statements_iff (List.cons_ne_nil _ _) hnames (by decide)
    oneColumn_found (show IsName (fun _ ↦ false) "k" by decide) "" "1"
  exact ⟨hupdate.2 (by decide), hinsert.2 (by decide)⟩

/-- A quote in a value ends the literal, and the server reads another statement or none. -/
theorem not_statements_quote :
    Sql.read (fun _ ↦ false) (cStr (updateRowMysql oneColumnGateway.config "t" [⟨"f", "a'b"⟩] ""
        (whereKey "k" "1"))) ≠
      some (.update "t" (assignmentsOf oneColumn [⟨"f", "a'b"⟩]) "k" "1") := by
  have hnames : ∀ kv ∈ [KeyValue.mk "f" "a'b"],
      IsName (fun _ ↦ false) (oneColumn.getTblFieldName kv.field) := by
    rw [List.forall_mem_singleton, oneColumn_field]
    decide
  have hmapped : AllMapped oneColumn [⟨"f", "a'b"⟩] := fun kv hkv ↦
    mt String.toList_eq_nil_iff.2 (hnames kv hkv).1.1
  rw [updateRowMysql_of_mapped oneColumn_found hmapped (List.cons_ne_nil _ _)]
  intro h
  have hverbatim := (read_updateText_iff (List.cons_ne_nil _ _) hnames (by decide)
    (by decide)).1 h
  exact absurd hverbatim (by decide)

/-! ### The count query -/

/-- The count query is read back for every key that is verbatim. -/
theorem read_countText (htblname : IsName reserved obj.tableName)
    (hkeyname : IsName reserved obj.tblKeyName) (hkey : Verbatim tblKey) :
    Sql.read reserved (cStr (countText obj tblKey)) =
      some (.selectCount obj.tableName obj.tblKeyName tblKey) := by
  have hreserved : ∀ name ∈ (Statement.selectCount obj.tableName obj.tblKeyName tblKey).names,
      reserved name = false := by
    intro name hname
    simp only [Statement.names, List.mem_cons, List.not_mem_nil, or_false] at hname
    rcases hname with rfl | rfl
    · exact htblname.2
    · exact hkeyname.2
  have hproper : (Statement.selectCount obj.tableName obj.tblKeyName tblKey).IsProper := trivial
  have htext : (countText obj tblKey).toList = "select".toList ++ ' ' :: ("count".toList ++
      '(' :: '*' :: ')' :: ' ' :: ("from".toList ++ ' ' :: (obj.tableName.toList ++
        (whereKey obj.tblKeyName tblKey).toList))) := by
    have hfront : "select count(*) from ".toList = "select".toList ++ ' ' :: ("count".toList ++
        '(' :: '*' :: ')' :: ' ' :: ("from".toList ++ [' '])) := by decide
    unfold countText
    generalize whereKey obj.tblKeyName tblKey = condition
    simp only [String.toList_append, hfront, List.append_assoc, List.cons_append, List.nil_append]
  refine (read_eq_some_iff hproper hreserved).2 ?_
  rw [toList_cStr, htext]
  show lex .blank _ = some (.word "select" :: .word "count" :: .symbol '(' :: .symbol '*' ::
    .symbol ')' :: .word "from" :: .word obj.tableName :: whereTokens obj.tblKeyName tblKey)
  rw [lex_untilNul_word_iff (by decide) rfl (by decide), lex_untilNul_space,
    lex_untilNul_word_iff (by decide) rfl (by decide), lex_untilNul_symbol_iff rfl (by decide),
    lex_untilNul_symbol_iff rfl (by decide), lex_untilNul_symbol_iff rfl (by decide),
    lex_untilNul_space, lex_untilNul_word_iff (by decide) rfl (by decide), lex_untilNul_space,
    toList_whereKey, lex_untilNul_word_iff htblname.1 rfl (by decide), ← toList_whereKey,
    lex_where_iff hkeyname.1]
  exact hkey

/-! ### Statements that are cut -/

/-- Whole tokens, and nothing that is open at the end. -/
def Leads (pre : List Char) : Prop :=
  (∀ c ∈ pre, c ≠ '\x00') ∧ ∃ tokens : List Sql.Token,
    (∀ rest, lex .blank (pre ++ rest) = (lex .blank rest).map (tokens ++ ·)) ∧
      ∀ c, .symbol c ∈ tokens → c ∈ plainSymbols

theorem leads_nil : Leads [] := by
  refine ⟨by simp, [], fun rest ↦ ?_, by simp⟩
  exact Option.map_id'.symm

theorem Leads.append (hcs : Leads cs) (hds : Leads ds) : Leads (cs ++ ds) := by
  obtain ⟨hnul, ts, hlex, hts⟩ := hcs
  obtain ⟨hnul', ts', hlex', hts'⟩ := hds
  refine ⟨List.forall_mem_append.2 ⟨hnul, hnul'⟩, ts ++ ts', fun rest ↦ ?_, fun c hc ↦ ?_⟩
  · rw [List.append_assoc, hlex, hlex', Option.map_map]
    exact congrArg (Option.map · _) (funext fun tokens ↦ (List.append_assoc ts ts' tokens).symm)
  · rcases List.mem_append.1 hc with hc | hc
    · exact hts c hc
    · exact hts' c hc

theorem leads_space : Leads [' '] :=
  ⟨by simp, [], fun rest ↦ (lex_space rest).trans Option.map_id'.symm, by simp⟩

theorem leads_symbol (hstart : Mode.start c = ([.symbol c], .blank)) (hnul : c ≠ '\x00')
    (hc : c ∈ plainSymbols) : Leads [c] :=
  ⟨by simpa using hnul, [.symbol c], fun rest ↦ lex_symbol hstart rest, by simpa using hc⟩

theorem leads_word (hw : IsWord w) (hword : isWordChar c = false) (hc : Leads [c]) :
    Leads (w.toList ++ [c]) := by
  obtain ⟨hnul, ts, hlex, hts⟩ := hc
  refine ⟨List.forall_mem_append.2 ⟨noNul_of_isWord hw, hnul⟩, .word w :: ts, fun rest ↦ ?_, ?_⟩
  · rw [List.append_assoc, List.singleton_append, lex_word hw hword, ← List.singleton_append, hlex,
      Option.map_map]
    rfl
  · simpa using hts

/-- A literal is whole with its second quote and the character behind that, which must not be a
quote too. -/
theorem leads_literal (hv : Verbatim v) (hquote : c ≠ '\'') (hc : Leads [c]) :
    Leads ('\'' :: (v.toList ++ ['\'', c])) := by
  obtain ⟨hnul, ts, hlex, hts⟩ := hc
  refine ⟨?_, .literal v :: ts, fun rest ↦ ?_, by simpa using hts⟩
  · refine List.forall_mem_cons.2 ⟨by decide, List.forall_mem_append.2 ⟨hv.2, ?_⟩⟩
    exact List.forall_mem_cons.2 ⟨by decide, hnul⟩
  · have hstop : lex .blank (c :: rest) = (lex .blank rest).map (ts ++ ·) := hlex rest
    have hliteral : lex .blank ('\'' :: (v.toList ++ '\'' :: c :: rest)) =
        (lex .blank (c :: rest)).map (.literal v :: ·) := lex_literal hv.1 hquote
    rw [hstop, Option.map_map] at hliteral
    rw [List.cons_append, List.append_assoc]
    exact hliteral

/-- **A value with a NUL** is where the text ends. -/
theorem Leads.ends (h : Leads cs) (hv : IsPlain v) (hnul : ¬ NoNul v) (rest : List Char) :
    EndsInLiteral (untilNul (cs ++ '\'' :: (v.toList ++ rest))) := by
  obtain ⟨hcs, ts, hlex, hts⟩ := h
  have hcut : untilNul (cs ++ '\'' :: (v.toList ++ rest)) = cs ++ '\'' :: untilNul v.toList := by
    rw [← untilNul_append_of_not hnul rest, ← untilNul_cons (by decide)]
    exact List.takeWhile_append_of_pos fun c hc ↦ decide_eq_true (hcs c hc)
  rw [hcut]
  exact (EndsInLiteral.quote fun c hc ↦ hv c (List.takeWhile_subset _ hc)).of_lex hlex hts

/-- Pieces with commas between them, up to one of the pieces: what is in front of it has a comma
after each piece. -/
theorem intercalate_split {α : Type} (text : α → String) (before : List α) (x : α)
    (after : List α) : ∃ more,
      (",".intercalate ((before ++ x :: after).map text)).toList =
        (before.flatMap fun y ↦ (text y).toList ++ [',']) ++ ((text x).toList ++ more) := by
  induction before with
  | nil =>
    rcases eq_or_ne after [] with rfl | hne
    · exact ⟨[], (List.append_nil _).symm⟩
    · refine ⟨',' :: (",".intercalate (after.map text)).toList, ?_⟩
      rw [List.nil_append, List.map_cons, intercalate_cons (by simpa using hne),
        String.toList_append, String.toList_append]
      rfl
  | cons y before ih =>
    obtain ⟨more, hmore⟩ := ih
    refine ⟨more, ?_⟩
    rw [List.cons_append, List.map_cons, intercalate_cons (by simp), String.toList_append,
      String.toList_append, hmore, List.flatMap_cons, List.append_assoc, List.append_assoc]
    rfl

theorem Leads.flatMap {α : Type} {f : α → List Char} {l : List α} (h : ∀ x ∈ l, Leads (f x)) :
    Leads (l.flatMap f) := by
  induction l with
  | nil => exact leads_nil
  | cons x l ih =>
    obtain ⟨hx, hl⟩ := List.forall_mem_cons.1 h
    exact hx.append (ih hl)

/-- If some value has a NUL in it, there is a first one. -/
theorem exists_first (h : ∃ kv ∈ record, ¬ NoNul kv.value) : ∃ before kv after,
    record = before ++ kv :: after ∧ (∀ kv' ∈ before, NoNul kv'.value) ∧ ¬ NoNul kv.value := by
  induction record with
  | nil => exact absurd h (by simp)
  | cons first record ih =>
    by_cases hfirst : NoNul first.value
    · obtain ⟨kv, hkv, hnul⟩ := h
      rcases List.mem_cons.1 hkv with rfl | hkv
      · exact absurd hfirst hnul
      · obtain ⟨before, kv, after, rfl, hbefore, hnul⟩ := ih ⟨kv, hkv, hnul⟩
        exact ⟨first :: before, kv, after, rfl, List.forall_mem_cons.2 ⟨hfirst, hbefore⟩, hnul⟩
    · exact ⟨[], first, record, rfl, by simp, hfirst⟩

theorem leads_comma : Leads [','] := leads_symbol rfl (by decide) (by decide)

theorem leads_names {names : List String} (hne : names ≠ []) (h : ∀ name ∈ names, IsWord name) :
    Leads ((",".intercalate names).toList ++ [')']) := by
  induction names with
  | nil => exact absurd rfl hne
  | cons name names ih =>
    obtain ⟨hname, hnames⟩ := List.forall_mem_cons.1 h
    rcases eq_or_ne names [] with rfl | hne
    · exact leads_word hname rfl (leads_symbol rfl (by decide) (by decide))
    · rw [intercalate_cons hne, String.toList_append, String.toList_append, List.append_assoc,
        List.append_assoc, ← List.append_assoc name.toList]
      exact (leads_word hname rfl leads_comma).append (ih hne hnames)

section Cut

variable (hnames : ∀ kv ∈ record, IsWord (obj.getTblFieldName kv.field)) (htblname : IsWord tblname)
  (hplain : ∀ kv ∈ record, IsPlain kv.value) (hnul : ∃ kv ∈ record, ¬ NoNul kv.value)

include hnames htblname hplain hnul

/-- **An `update`** with a NUL in a value ends in a literal. -/
theorem ends_updateText (condition : String) :
    EndsInLiteral (cStr (updateText obj tblname record condition)).toList := by
  obtain ⟨before, kv, after, rfl, hbefore, hkv⟩ := exists_first hnul
  obtain ⟨more, hmore⟩ := intercalate_split (assignmentText obj) before kv after
  have hname := hnames kv (by simp)
  have htext : (updateText obj tblname (before ++ kv :: after) condition).toList =
      ("update".toList ++ [' ']) ++ ((tblname.toList ++ [' ']) ++ (("set".toList ++ [' ']) ++
        ((before.flatMap fun kv ↦ (assignmentText obj kv).toList ++ [',']) ++
          ((obj.getTblFieldName kv.field).toList ++ ['='])))) ++
            '\'' :: (kv.value.toList ++ ('\'' :: (more ++ ' ' :: condition.toList))) := by
    rw [toList_updateText, hmore]
    simp [assignmentText, String.toList_append]
  rw [toList_cStr, htext]
  refine Leads.ends ?_ (hplain kv (by simp)) hkv _
  refine (leads_word (by decide) rfl leads_space).append ((leads_word htblname rfl
    leads_space).append ((leads_word (by decide) rfl leads_space).append (Leads.append
      (Leads.flatMap fun kv' hkv' ↦ ?_)
      (leads_word hname rfl (leads_symbol rfl (by decide) (by decide))))))
  have hmem : kv' ∈ before ++ kv :: after := List.mem_append_left _ hkv'
  have hpiece : (assignmentText obj kv').toList ++ [','] =
      ((obj.getTblFieldName kv'.field).toList ++ ['=']) ++
        '\'' :: (kv'.value.toList ++ ['\'', ',']) := by
    simp [assignmentText, String.toList_append]
  rw [hpiece]
  exact (leads_word (hnames kv' hmem) rfl (leads_symbol rfl (by decide) (by decide))).append
    (leads_literal ⟨(hplain kv' hmem).isKept, hbefore kv' hkv'⟩ (by decide) leads_comma)

/-- **An `insert`** with a NUL in a value ends in a literal. -/
theorem ends_insertText :
    EndsInLiteral (cStr (insertText obj tblname record)).toList := by
  have hne : columnsOf obj record ≠ [] := by
    obtain ⟨kv, hkv, -⟩ := hnul
    exact List.ne_nil_of_mem (List.mem_map_of_mem hkv)
  have hcolumns : ∀ name ∈ columnsOf obj record, IsWord name := List.forall_mem_map.2 hnames
  have hfront : (insertText obj tblname record).toList =
      ("insert".toList ++ [' ']) ++ (("into".toList ++ [' ']) ++ ((tblname.toList ++ ['(']) ++
        (((",".intercalate (columnsOf obj record)).toList ++ [')']) ++ ([' '] ++
          ("values".toList ++ ['(']))))) ++
            ((",".intercalate (record.map valueText)).toList ++ [')', ';']) := by
    rw [toList_insertText]
    simp only [List.append_assoc, List.cons_append, List.nil_append]
  have hleads : Leads (("insert".toList ++ [' ']) ++ (("into".toList ++ [' ']) ++
      ((tblname.toList ++ ['(']) ++ (((",".intercalate (columnsOf obj record)).toList ++ [')']) ++
        ([' '] ++ ("values".toList ++ ['('])))))) :=
    (leads_word (by decide) rfl leads_space).append ((leads_word (by decide) rfl
      leads_space).append ((leads_word htblname rfl (leads_symbol rfl (by decide)
        (by decide))).append ((leads_names hne hcolumns).append (leads_space.append
          (leads_word (by decide) rfl (leads_symbol rfl (by decide) (by decide)))))))
  obtain ⟨before, kv, after, rfl, hbefore, hkv⟩ := exists_first hnul
  obtain ⟨more, hmore⟩ := intercalate_split valueText before kv after
  have hvalue : (valueText kv).toList = '\'' :: (kv.value.toList ++ ['\'']) := by
    simp [valueText, String.toList_append]
  rw [toList_cStr, hfront, hmore, hvalue]
  generalize ("insert".toList ++ [' ']) ++ (("into".toList ++ [' ']) ++
      ((tblname.toList ++ ['(']) ++ (((",".intercalate (columnsOf obj
        (before ++ kv :: after))).toList ++ [')']) ++ ([' '] ++ ("values".toList ++ ['('])))))
          = front at hleads
  have hsplit : front ++ ((before.flatMap fun kv ↦ (valueText kv).toList ++ [',']) ++
      ('\'' :: (kv.value.toList ++ ['\'']) ++ more) ++ [')', ';']) =
        (front ++ before.flatMap fun kv ↦ (valueText kv).toList ++ [',']) ++
          '\'' :: (kv.value.toList ++ ('\'' :: (more ++ [')', ';']))) := by
    simp
  rw [hsplit]
  refine Leads.ends (hleads.append (Leads.flatMap fun kv' hkv' ↦ ?_)) (hplain kv (by simp)) hkv _
  have hpiece : (valueText kv').toList ++ [','] =
      '\'' :: (kv'.value.toList ++ ['\'', ',']) := by
    simp [valueText, String.toList_append]
  rw [hpiece]
  exact leads_literal ⟨(hplain kv' (List.mem_append_left _ hkv')).isKept, hbefore kv' hkv'⟩
    (by decide) leads_comma

end Cut

end QCLib
