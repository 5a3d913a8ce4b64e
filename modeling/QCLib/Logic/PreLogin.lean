import QCLib.Foundations.CStrings
import QCLib.Logic.RecordText
import QCLib.Store.NoSqlStore

/-!
# The roles of a user

What the logic thread reads before a player is in the game: the set of role ids of a user, and the
record of a role.

Both are read from any store, and the order in which the store lists the members of a set is not
known. What is proved about the answer that is made of them is in `Logic.RoleList`.
-/

namespace QCLib

open CStrings

variable {σ : Type} (nosql : NoSqlStore σ)

/-- `GetRoleIds`, into an empty list. -/
def getRoleIds (db : σ) (userId : UserId) : List String := nosql.getSetCache db (userKey userId)

/-- The text in `player_table_key` for a role id; `snprintf` is given one byte less than there is.
-/
def roleKey (objId : String) : String :=
  String.ofList ((kPlayerTable ++ ":" ++ cStr objId).toList.take 254)

/-- `GetPreLoginPlayerInfo`: the record, and whether there was one to read. -/
def getPreLoginPlayerInfo (db : σ) (objId : String) (playerInfo : PlayerDataPreLogin) :
    PlayerDataPreLogin × Bool :=
  let keyValue := nosql.getDataCacheAll db (roleKey objId)
  if keyValue.length > 0 then (playerInfo.mapToStruct keyValue, true) else (playerInfo, false)

variable {nosql} {contents : σ → String → RedisEntry}

/-- The ids that are listed are the members of the user's set. -/
theorem mem_getRoleIds (hnosql : nosql.Faithful contents) {db : σ} {userId : UserId}
    {id : String} :
    id ∈ getRoleIds nosql db userId ↔ id ∈ (contents db (userKey userId)).members :=
  (hnosql.getSetCache db (userKey userId)).2 id

end QCLib
