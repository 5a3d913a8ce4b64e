import QCLib.Aoi.Tower
import QCLib.Net.Command

/-!
# Player records and the key-value store

`PlayerDataMsg` is the part of a player that outlives a session. The macros `DESCRIBE_STRUCT` and
`DESCRIBE_FIELD` turn it into a list of field and value texts and back, each value passing through a
`std::stringstream`; `NoSqlDBCache` stores such lists under string keys.

A stream extraction skips blanks and reads one token. On a stream with nothing but blanks it fails
and leaves its target alone; a number that does not fit is clamped.

The text of a number is in decimal, and reading one goes as `num_get` does: blanks are skipped, a
sign may stand in front, and as many digits are taken as there are. Whatever follows them is
ignored. A number that is too large or too small leaves the nearest one that there is. A stream that
is at its end leaves its target alone, and so a member keeps what it had.
-/

namespace QCLib

/-! ### Extraction from a `std::stringstream` -/

namespace Stringstream

/-- `isspace` in the classic locale. -/
def isSpace (c : Char) : Bool :=
  c = ' ' || c = '\t' || c = '\n' || c = '\x0b' || c = '\x0c' || c = '\r'

/-- `s_stream << text; s_stream >> target` for a string target: the new target. -/
def extractString (text target : String) : String :=
  match text.toList.dropWhile isSpace with
  | [] => target
  | cs => String.ofList (cs.takeWhile fun c ↦ !isSpace c)

/-- The number that the leading digits spell, if there are any. -/
def leadingNat (cs : List Char) : Option Nat :=
  match cs.takeWhile Char.isDigit with
  | [] => none
  | ds => some (ds.foldl (fun n d ↦ 10 * n + (d.toNat - '0'.toNat)) 0)

/-- A sign, if there is one, and the digits after it. -/
def signed (cs : List Char) : Bool × Option Nat :=
  match cs with
  | '-' :: cs => (true, leadingNat cs)
  | '+' :: cs => (false, leadingNat cs)
  | cs => (false, leadingNat cs)

/-- Extraction into a signed integer with the range `lo` to `hi`. -/
def extractInt (lo hi : Int) (text : String) (target : Int) : Int :=
  match text.toList.dropWhile isSpace with
  | [] => target
  | cs =>
    match signed cs with
    | (_, none) => 0
    | (neg, some n) => max lo (min hi (if neg then -(n : Int) else n))

/-- Extraction into an `unsigned`: a sign negates modulo `2 ^ 32`. -/
def extractUInt32 (text : String) (target : UInt32) : UInt32 :=
  match text.toList.dropWhile isSpace with
  | [] => target
  | cs =>
    match signed cs with
    | (_, none) => 0
    | (neg, some n) =>
      if 2 ^ 32 ≤ n then UInt32.ofNat (2 ^ 32 - 1)
      else if neg then -UInt32.ofNat n else UInt32.ofNat n

/-- Extraction into an `int64_t`. -/
def extractInt64 (text : String) (target : Int64) : Int64 :=
  Int64.ofInt (extractInt (-2 ^ 63) (2 ^ 63 - 1) text target.toInt)

/-- Extraction into an `int32_t`. -/
def extractInt32 (text : String) (target : Int32) : Int32 :=
  Int32.ofInt (extractInt (-2 ^ 31) (2 ^ 31 - 1) text target.toInt)

end Stringstream

open Stringstream

/-! ### Records -/

/-- `RedisKeyValue`, one field of a stored hash. -/
structure KeyValue where
  field : String
  value : String
  deriving DecidableEq, Repr

/-- `PlayerDataMsg`. -/
structure PlayerDataMsg where
  objectId : ObjectId := 0
  userId : UserId := 0
  playerName : String := ""
  playerLevel : Int32 := 0
  playerJob : UInt32 := 0
  playerCountry : UInt32 := 0
  lastLoginTime : UInt32 := 0
  deriving DecidableEq, Repr

namespace PlayerDataMsg

/-- The members in the order they are described, as `<<` prints them. -/
def fields (x : PlayerDataMsg) : List (String × String) :=
  [("m_object_id", toString x.objectId.toInt), ("m_user_id", toString x.userId.toInt),
    ("m_player_name", x.playerName), ("m_playerLevel", toString x.playerLevel.toInt),
    ("m_playerJob", toString x.playerJob.toNat),
    ("m_playerCountry", toString x.playerCountry.toNat),
    ("m_lastLoginTime", toString x.lastLoginTime.toNat)]

/-- `DESCRIBE_FIELD`. The `struct_member` that receives the value is shared by all fields. -/
def describeField (s : List KeyValue × String) (f : String × String) : List KeyValue × String :=
  let value := extractString f.2 s.2
  (s.1 ++ [⟨f.1, value⟩], value)

/-- `StructToMap`, appending to `s_key_vlaue`. -/
def structToMap (x : PlayerDataMsg) (keyValue : List KeyValue) : List KeyValue :=
  (x.fields.foldl describeField (keyValue, "")).1

/-- `DESCRIBE_FIELD2` for all members: an entry with an unknown field is skipped. -/
def setField (x : PlayerDataMsg) (kv : KeyValue) : PlayerDataMsg :=
  if kv.field = "m_object_id" then { x with objectId := extractInt64 kv.value x.objectId }
  else if kv.field = "m_user_id" then { x with userId := extractInt64 kv.value x.userId }
  else if kv.field = "m_player_name" then
    { x with playerName := extractString kv.value x.playerName }
  else if kv.field = "m_playerLevel" then
    { x with playerLevel := extractInt32 kv.value x.playerLevel }
  else if kv.field = "m_playerJob" then { x with playerJob := extractUInt32 kv.value x.playerJob }
  else if kv.field = "m_playerCountry" then
    { x with playerCountry := extractUInt32 kv.value x.playerCountry }
  else if kv.field = "m_lastLoginTime" then
    { x with lastLoginTime := extractUInt32 kv.value x.lastLoginTime }
  else x

/-- `MapToStruct`: the fields are read into the members one by one. A member without a field keeps
what it had. -/
def mapToStruct (x : PlayerDataMsg) (keyValue : List KeyValue) : PlayerDataMsg :=
  keyValue.foldl setField x

end PlayerDataMsg

/-! ### The store -/

/-- `NoSqlDBCache`: a store of hashes and of sets under string keys, with states `σ`. Reading a
missing key yields no entries. -/
structure NoSqlDBCache (σ : Type) where
  setDataCache : σ → String → List KeyValue → σ
  getDataCacheAll : σ → String → List KeyValue
  addSetCache : σ → String → List String → σ

/-- A store in memory: writing a hash replaces the fields it names, and adding to a set keeps what
is there. -/
def NoSqlDBCache.inMemory :
    NoSqlDBCache (List (String × List KeyValue) × List (String × List String)) where
  setDataCache db key values :=
    let old := (db.1.lookup key).getD []
    ((key, old.filter (fun kv ↦ values.all fun kv' ↦ kv'.field ≠ kv.field) ++ values) :: db.1, db.2)
  getDataCacheAll db key := (db.1.lookup key).getD []
  addSetCache db key members := (db.1, (key, (db.2.lookup key).getD [] ∪ members) :: db.2)

/-- `KPlayerTable`. -/
def kPlayerTable : String := "player_data"

/-- The key `player_data:<object id>`. -/
def playerKey (id : ObjectId) : String := kPlayerTable ++ ":" ++ toString id.toInt

/-- The key `player_data:m_user_id:<user id>`. -/
def userKey (id : UserId) : String := kPlayerTable ++ ":m_user_id:" ++ toString id.toInt

end QCLib
