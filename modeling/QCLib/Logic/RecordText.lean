import QCLib.Logic.PlayerRecord

/-!
# The text of a player record

Every member of a record travels as a text, through one stream and one `struct_member` that are
shared by all members. A text survives the stream when it is a *token*: not empty and without
blanks. Numbers are printed as tokens and read back as they were; a player name that is not a token
is cut short, or replaced by whatever the member before it left in `struct_member`.

`roundTrips_iff` quantifies over all records: a record that was written is read back as it was if
and only if its name is a token. The six other members are numbers, and numbers always survive. The
"only if" uses that the one stream and the one text are shared by all members, so that a name of
blanks is read as the text of the member that was written before it.
-/

namespace QCLib

open Stringstream

/-! ### Tokens -/

/-- A text that an extraction takes as a whole. -/
def Token (text : String) : Prop := text ≠ "" ∧ ∀ c ∈ text.toList, isSpace c = false

instance (text : String) : Decidable (Token text) := inferInstanceAs (Decidable (_ ∧ _))

namespace Token

variable {text target : String}

theorem toList_ne_nil (h : Token text) : text.toList ≠ [] := by
  rw [Ne, String.toList_eq_nil_iff]
  exact h.1

/-- A token begins with no blank, so an extraction skips nothing in front of it. -/
theorem dropWhile_eq (h : Token text) : text.toList.dropWhile isSpace = text.toList := by
  rw [List.dropWhile_eq_self_iff]
  intro hpos
  rw [h.2 _ (List.getElem_mem hpos)]
  exact Bool.false_ne_true

/-- **A token comes out of a stream as it is.** -/
theorem extractString_eq (h : Token text) (target : String) : extractString text target = text := by
  have htake : text.toList.takeWhile (fun c ↦ !isSpace c) = text.toList := by
    rw [List.takeWhile_eq_self_iff]
    intro c hc
    rw [h.2 c hc]
    rfl
  rw [extractString, h.dropWhile_eq]
  split
  · next hnil => exact absurd hnil h.toList_ne_nil
  · rw [htake, String.ofList_toList]

/-- An extraction leaves a token in a target that held one. -/
theorem of_extractString (h : Token target) (text : String) :
    Token (extractString text target) := by
  rw [extractString]
  split
  · exact h
  · next hne =>
    obtain ⟨c, cs, hcs⟩ := List.exists_cons_of_ne_nil hne
    have hc : isSpace c = false := by
      have hhead := List.head_dropWhile_not isSpace hne
      simpa only [hcs, List.head_cons] using hhead
    refine ⟨?_, fun d hd ↦ ?_⟩
    · rw [hcs, List.takeWhile_cons_of_pos (by rw [hc]; rfl)]
      simp [← String.toList_inj]
    · rw [String.toList_ofList] at hd
      simpa using List.mem_takeWhile_imp hd

/-- **What survives the stream**: `>>` stops at the first blank, so a text comes back if and only if
it is one word. -/
theorem extractString_eq_iff (h : Token target) : extractString text target = text ↔ Token text :=
  ⟨fun heq ↦ heq ▸ h.of_extractString text, fun ht ↦ ht.extractString_eq target⟩

end Token

/-! ### Numbers -/

theorem isSpace_of_isDigit {c : Char} (h : c.isDigit = true) : isSpace c = false := by
  rw [Bool.eq_false_iff]
  intro hs
  simp only [isSpace, Bool.or_eq_true, decide_eq_true_eq] at hs
  rcases hs with ((((rfl | rfl) | rfl) | rfl) | rfl) | rfl <;> exact absurd h (by decide)

theorem toList_toString_nat (n : ℕ) : (toString n).toList = Nat.toDigits 10 n := Nat.toList_repr

theorem token_toString_nat (n : ℕ) : Token (toString n) := by
  refine ⟨fun h ↦ ?_, fun c hc ↦ ?_⟩
  · rw [← String.toList_eq_nil_iff, toList_toString_nat] at h
    exact Nat.toDigits_ne_nil h
  · rw [toList_toString_nat] at hc
    exact isSpace_of_isDigit (Nat.isDigit_of_mem_toDigits (by omega) (by omega) hc)

/-- The text of a negative number is its digits behind a sign. -/
theorem toList_toString_neg (m : ℕ) :
    (toString (Int.negSucc m)).toList = '-' :: Nat.toDigits 10 (m + 1) := by
  show ("-" ++ toString (m + 1)).toList = _
  rw [String.toList_append, toList_toString_nat]
  rfl

theorem token_toString_int (i : ℤ) : Token (toString i) := by
  cases i with
  | ofNat n => exact token_toString_nat n
  | negSucc m =>
    refine ⟨fun h ↦ ?_, fun c hc ↦ ?_⟩
    · rw [← String.toList_eq_nil_iff, toList_toString_neg] at h
      exact List.cons_ne_nil _ _ h
    · rw [toList_toString_neg] at hc
      rcases List.mem_cons.1 hc with rfl | hc
      · rfl
      · exact isSpace_of_isDigit (Nat.isDigit_of_mem_toDigits (by omega) (by omega) hc)

theorem leadingNat_toDigits (n : ℕ) : leadingNat (Nat.toDigits 10 n) = some n := by
  have htake : (Nat.toDigits 10 n).takeWhile Char.isDigit = Nat.toDigits 10 n := by
    rw [List.takeWhile_eq_self_iff]
    exact fun c hc ↦ Nat.isDigit_of_mem_toDigits (by omega) (by omega) hc
  rw [leadingNat, htake]
  split
  · next hnil => exact absurd hnil Nat.toDigits_ne_nil
  · rw [← Nat.ofDigitChars_eq_foldl, Nat.ofDigitChars_ten_toDigits]

/-- The digits of a natural number carry no sign, and are read as a number without one. -/
theorem signed_toDigits (n : ℕ) : signed (Nat.toDigits 10 n) = (false, some n) := by
  have hdigit (c : Char) (cs : List Char) (h : Nat.toDigits 10 n = c :: cs) : c.isDigit = true :=
    Nat.isDigit_of_mem_toDigits (b := 10) (n := n) (by omega) (by omega) (h ▸ List.mem_cons_self)
  unfold signed
  split
  · next h => exact absurd (hdigit _ _ h) (by decide)
  · next h => exact absurd (hdigit _ _ h) (by decide)
  · rw [leadingNat_toDigits]

/-- The sign and the digits of a printed number. -/
theorem signed_toString (i : ℤ) :
    signed (toString i).toList = (decide (i < 0), some i.natAbs) := by
  cases i with
  | ofNat n =>
    show signed (toString n).toList = _
    rw [toList_toString_nat, signed_toDigits]
    simp
  | negSucc m =>
    rw [toList_toString_neg, signed, leadingNat_toDigits]
    simp [Int.negSucc_lt_zero]

/-- **A number comes out of a stream as it went in**, within the bounds of its type. -/
theorem extractInt_toString {lo hi i : ℤ} (hlo : lo ≤ i) (hhi : i ≤ hi) (target : ℤ) :
    extractInt lo hi (toString i) target = i := by
  have htok := token_toString_int i
  rw [extractInt, htok.dropWhile_eq]
  split
  · next hnil => exact absurd hnil htok.toList_ne_nil
  · rw [signed_toString]
    show max lo (min hi (if decide (i < 0) = true then -(i.natAbs : ℤ) else i.natAbs)) = i
    split <;> simp only [decide_eq_true_eq] at * <;> omega

theorem extractInt64_toString (x target : Int64) : extractInt64 (toString x.toInt) target = x := by
  have hlo := x.le_toInt
  have hhi := x.toInt_lt
  rw [extractInt64, extractInt_toString hlo (by omega), Int64.ofInt_toInt]

theorem extractInt32_toString (x target : Int32) : extractInt32 (toString x.toInt) target = x := by
  have hlo := x.le_toInt
  have hhi := x.toInt_lt
  rw [extractInt32, extractInt_toString hlo (by omega), Int32.ofInt_toInt]

theorem extractUInt32_toString (x target : UInt32) :
    extractUInt32 (toString x.toNat) target = x := by
  have htok := token_toString_nat x.toNat
  rw [extractUInt32, htok.dropWhile_eq]
  split
  · next hnil => exact absurd hnil htok.toList_ne_nil
  · rw [toList_toString_nat, signed_toDigits]
    show (if 2 ^ 32 ≤ x.toNat then _ else UInt32.ofNat x.toNat) = x
    rw [if_neg (by have := x.toNat_lt; omega), UInt32.ofNat_toNat]

/-! ### Records -/

/-- `PlayerDataPreLogin`, a record with the members of `PlayerDataMsg`. -/
structure PlayerDataPreLogin where
  objectId : ObjectId := 0
  userId : UserId := 0
  playerName : String := ""
  playerLevel : Int32 := 0
  playerJob : UInt32 := 0
  playerCountry : UInt32 := 0
  lastLoginTime : UInt32 := 0
  deriving DecidableEq, Repr

namespace PlayerDataPreLogin

/-- `DESCRIBE_FIELD2` for all members. -/
def setField (x : PlayerDataPreLogin) (kv : KeyValue) : PlayerDataPreLogin :=
  if kv.field = "m_object_id" then { x with objectId := extractInt64 kv.value x.objectId }
  else if kv.field = "m_user_id" then { x with userId := extractInt64 kv.value x.userId }
  else if kv.field = "m_player_name" then
    { x with playerName := extractString kv.value x.playerName }
  else if kv.field = "m_playerLevel" then
    { x with playerLevel := extractInt32 kv.value x.playerLevel }
  else if kv.field = "m_playerJob" then { x with playerJob := extractUInt32 kv.value x.playerJob }
  else if kv.field = "m_playerCountry" then
    { x with playerCountry := extractUInt32 kv.value x.playerCountry }
  else if kv.field = "m_lastLoginTime" then
    { x with lastLoginTime := extractUInt32 kv.value x.lastLoginTime }
  else x

/-- `MapToStruct`. -/
def mapToStruct (x : PlayerDataPreLogin) (keyValue : List KeyValue) : PlayerDataPreLogin :=
  keyValue.foldl setField x

/-- The same members in a `PlayerDataMsg`. -/
def toMsg (x : PlayerDataPreLogin) : PlayerDataMsg :=
  { objectId := x.objectId, userId := x.userId, playerName := x.playerName,
    playerLevel := x.playerLevel, playerJob := x.playerJob, playerCountry := x.playerCountry,
    lastLoginTime := x.lastLoginTime }

theorem toMsg_setField (x : PlayerDataPreLogin) (kv : KeyValue) :
    (x.setField kv).toMsg = x.toMsg.setField kv := by
  simp only [setField, PlayerDataMsg.setField, apply_ite toMsg]
  rfl

/-- Both kinds of record are made of a list of fields in the same way. -/
theorem toMsg_mapToStruct (x : PlayerDataPreLogin) (keyValue : List KeyValue) :
    (x.mapToStruct keyValue).toMsg = x.toMsg.mapToStruct keyValue := by
  induction keyValue generalizing x with
  | nil => rfl
  | cons kv keyValue ih =>
    show ((x.setField kv).mapToStruct keyValue).toMsg = (x.toMsg.setField kv).mapToStruct keyValue
    rw [ih, toMsg_setField]

end PlayerDataPreLogin

namespace PlayerDataMsg

/-- What is written for the name: a name that cannot be extracted leaves the user id in
`struct_member`. -/
def nameText (x : PlayerDataMsg) : String :=
  extractString x.playerName (toString x.userId.toInt)

theorem token_nameText (x : PlayerDataMsg) : Token x.nameText :=
  (token_toString_int _).of_extractString _

/-- The list that `StructToMap` writes: only the name can differ from the member's own text. -/
theorem structToMap_nil (x : PlayerDataMsg) :
    x.structToMap [] =
      ({ x with playerName := x.nameText } : PlayerDataMsg).fields.map fun f ↦ ⟨f.1, f.2⟩ := by
  simp only [structToMap, fields, List.foldl_cons, List.foldl_nil, describeField, List.map_cons,
    List.map_nil, List.nil_append, List.cons_append, nameText,
    (token_toString_int _).extractString_eq, (token_toString_nat _).extractString_eq]

/-- Reading the texts of a record back into any other. -/
theorem mapToStruct_fields {x : PlayerDataMsg} (h : Token x.playerName) (y : PlayerDataMsg) :
    y.mapToStruct (x.fields.map fun f ↦ ⟨f.1, f.2⟩) = x := by
  simp only [mapToStruct, fields, List.map_cons, List.map_nil, List.foldl_cons, List.foldl_nil,
    setField, String.reduceEq, if_true, if_false, extractInt64_toString, extractInt32_toString,
    extractUInt32_toString, h.extractString_eq]

/-- **Writing a record and reading it back** gives every member back, apart from the name, for which
stands what the stream had in it. -/
theorem mapToStruct_structToMap (x y : PlayerDataMsg) :
    y.mapToStruct (x.structToMap []) = { x with playerName := x.nameText } := by
  rw [structToMap_nil]
  exact mapToStruct_fields (by exact x.token_nameText) y

/-- The name is written as it is exactly if it is one word. -/
theorem nameText_eq_iff (x : PlayerDataMsg) : x.nameText = x.playerName ↔ Token x.playerName :=
  (token_toString_int _).extractString_eq_iff

/-- The whole record is written as it is under the same condition. -/
theorem set_nameText_eq_iff (x : PlayerDataMsg) :
    { x with playerName := x.nameText } = x ↔ Token x.playerName := by
  rw [← nameText_eq_iff]
  exact ⟨fun h ↦ congrArg playerName h, fun h ↦ by rw [h]⟩

/-- The record comes back in every field, into records of both kinds, and every field is written as
its own text. -/
def RoundTrips (x : PlayerDataMsg) : Prop :=
  (∀ y : PlayerDataMsg, y.mapToStruct (x.structToMap []) = x) ∧
    (∀ y : PlayerDataPreLogin, (y.mapToStruct (x.structToMap [])).toMsg = x) ∧
      x.structToMap [] = x.fields.map fun f ↦ ⟨f.1, f.2⟩

/-- **The round trip of a record.** Numbers always come back; a name does exactly when it is a
token. -/
theorem roundTrips_iff (x : PlayerDataMsg) :
    x.RoundTrips ↔ x.playerName ≠ "" ∧ ∀ c ∈ x.playerName.toList, isSpace c = false := by
  show _ ↔ Token x.playerName
  rw [← set_nameText_eq_iff]
  constructor
  · rintro ⟨h, -, -⟩
    rw [← mapToStruct_structToMap x x]
    exact h x
  · intro h
    refine ⟨fun y ↦ ?_, fun y ↦ ?_, ?_⟩
    · rw [mapToStruct_structToMap, h]
    · rw [PlayerDataPreLogin.toMsg_mapToStruct, mapToStruct_structToMap, h]
    · rw [structToMap_nil, h]

/-- A player without a name gets the number of its user for one. -/
theorem not_roundTrips_noName : ¬ ({ userId := 7 } : PlayerDataMsg).RoundTrips := by
  rintro ⟨h, -, -⟩
  exact absurd (congrArg playerName (h {})) (by decide +kernel)

end PlayerDataMsg

end QCLib
