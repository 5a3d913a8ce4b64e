import QCLib.Foundations.Indexes
import QCLib.Logic.PlayerRecord
import QCLib.Store.RedisFormat

/-!
# The Redis client

`RedisSyncClient`: hashes and sets under string keys, kept by a Redis server. The commands are built
by appending keys, fields and values to one string, which is then the *format* of `redisCommand`;
only `HGETALL` passes its key as an argument.

The server is not part of the repository. It is a parameter, and what is relied on is that it keeps
hashes and sets as it should (`RedisServer.Faithful`).

Two questions are kept apart. What arguments a command has is decided by `redisvFormatCommand`, on
the text that the client has built (`Store.RedisFormat`); what the server then does is relied on.
`redis_writes_iff` joins them: a write stores what was meant, for every key and every list of
values, if and only if the texts are words that the formatting keeps.
-/

namespace QCLib

open Hiredis

/-! ### The server -/

/-- `redisReply`, as far as the client looks at it. -/
inductive RedisReply where
  | status (str : String)
  | integer (integer : Int)
  | error (str : String)
  | array (elements : List String)
  deriving DecidableEq, Repr

/-- A Redis server with states `σ`: what it does with a command, and what it keeps under a key. -/
structure RedisServer (σ : Type) where
  command : σ → List String → σ × RedisReply
  hash : σ → String → String → Option String
  set : σ → String → String → Prop

/-- The arguments that some fields and values make. -/
def fieldArgs (values : List KeyValue) : List String :=
  values.flatMap fun kv ↦ [kv.field, kv.value]

/-- The server stores and returns hashes and sets faithfully: under keys that are not in use for the
other kind. -/
structure RedisServer.Faithful {σ : Type} (R : RedisServer σ) : Prop where
  hmset : ∀ s key (values : List KeyValue), (∀ member, ¬ R.set s key member) →
    (values.map (·.field)).Nodup →
      (∀ member, ¬ R.set (R.command s (["HMSET", key] ++ fieldArgs values)).1 key member) ∧
      ∀ field value, R.hash (R.command s (["HMSET", key] ++ fieldArgs values)).1 key field =
        some value ↔ ⟨field, value⟩ ∈ values ∨
          (field ∉ values.map (·.field) ∧ R.hash s key field = some value)
  hgetall : ∀ s key, (∀ member, ¬ R.set s key member) →
    ∃ values : List KeyValue, (R.command s ["HGETALL", key]).2 = .array (fieldArgs values) ∧
      values.Nodup ∧ ∀ kv : KeyValue, kv ∈ values ↔ R.hash s key kv.field = some kv.value
  sadd : ∀ s key members, members ≠ [] → (∀ field, R.hash s key field = none) →
    (∀ field, R.hash (R.command s (["SADD", key] ++ members)).1 key field = none) ∧
      ∀ member, R.set (R.command s (["SADD", key] ++ members)).1 key member ↔
        member ∈ members ∨ R.set s key member
  smembers : ∀ s key, (∀ field, R.hash s key field = none) →
    ∃ members, (R.command s ["SMEMBERS", key]).2 = .array members ∧ members.Nodup ∧
      ∀ member, member ∈ members ↔ R.set s key member

/-! ### The client -/

/-- `redisContext`: the connection to the server, and whether it has failed. -/
structure RedisContext (σ : Type) where
  server : σ
  err : Bool := false

variable {σ : Type} (R : RedisServer σ)

/-- `redisCommand`: a reply, or `NULL`. -/
def redisCommand (c : RedisContext σ) (format : String) (args : List String) :
    Option (RedisContext σ × Option RedisReply) := do
  match ← redisvFormatCommand format args with
  | none => return ({ c with err := true }, none)
  | some argv =>
    if c.err then return (c, none)
    else return ({ c with server := (R.command c.server argv).1 }, some (R.command c.server argv).2)

/-- The string that `RedisSetHash` builds. -/
def setHashCommand (key : String) (values : List KeyValue) : String :=
  values.foldl (fun command kv ↦ command ++ " " ++ kv.field ++ " " ++ kv.value) ("HMSET " ++ key)

/-- The string that `RedisAddSet` builds. -/
def addSetCommand (key : String) (members : List String) : String :=
  members.foldl (fun command member ↦ command ++ " " ++ member) ("SADD " ++ key)

/-- The elements of a reply to `HGETALL`, taken in pairs. -/
def pairUp : List String → List KeyValue
  | field :: value :: rest => ⟨field, value⟩ :: pairUp rest
  | _ => []

/-- `RedisSetHash`. The type of a `NULL` reply is read. -/
def redisSetHash (c : RedisContext σ) (key : String) (values : List KeyValue) :
    Option (RedisContext σ) := do
  let (c, reply) ← redisCommand R c (setHashCommand key values) []
  let _ ← reply
  return c

/-- `RedisGetHashAll`. Any reply but an array is taken for an empty hash. -/
def redisGetHashAll (c : RedisContext σ) (key : String) :
    Option (RedisContext σ × List KeyValue) := do
  let (c, reply) ← redisCommand R c "HGETALL  %s" [key]
  match ← reply with
  | .array elements => return (c, pairUp elements)
  | .error _ | .status _ | .integer _ => return (c, [])

/-- `RedisAddSet`. A `NULL` reply is freed. -/
def redisAddSet (c : RedisContext σ) (key : String) (members : List String) :
    Option (RedisContext σ) := do
  let (c, reply) ← redisCommand R c (addSetCommand key members) []
  let _ ← reply
  return c

/-- `RedisGetSet`, which appends to the list it is given. -/
def redisGetSet (c : RedisContext σ) (key : String) (keys : List String) :
    Option (RedisContext σ × List String) := do
  let (c, reply) ← redisCommand R c ("SMEMBERS " ++ key) []
  match ← reply with
  | .array elements => return (c, keys ++ elements)
  | .error _ | .status _ | .integer _ => return (c, keys)

/-! ### What a write stores -/

/-- The command of `RedisSetHash` has the key, the fields and the values as its arguments, and a
following `RedisGetHashAll` returns them. -/
def StoresHash (key : String) (values : List KeyValue) : Prop :=
  redisvFormatCommand (setHashCommand key values) [] =
      some (some (["HMSET", key] ++ fieldArgs values)) ∧
    ∀ s, (∀ member, ¬ R.set s key member) → ∃ c, redisSetHash R ⟨s, false⟩ key values = some c ∧
      ∃ c' got, redisGetHashAll R c key = some (c', got) ∧ (∀ kv ∈ values, kv ∈ got) ∧
        ((∀ field, R.hash s key field = none) → got.Perm values)

/-- The command of `RedisAddSet` has the key and the members as its arguments, and a following
`RedisGetSet` returns them. -/
def StoresSet (key : String) (members : List String) : Prop :=
  redisvFormatCommand (addSetCommand key members) [] =
      some (some (["SADD", key] ++ members)) ∧
    ∀ s, (∀ field, R.hash s key field = none) → ∃ c, redisAddSet R ⟨s, false⟩ key members = some c ∧
      ∃ c' got, redisGetSet R c key [] = some (c', got) ∧
        ∀ member, member ∈ got ↔ member ∈ members ∨ R.set s key member

/-! ### The commands -/

variable {R} {key : String} {values : List KeyValue} {members keys : List String}
  {c : RedisContext σ}

/-- A list with spaces between its elements is the first one, and a space in front of each of the
others. -/
theorem intercalate_cons_eq (x : List Char) (xs : List (List Char)) :
    [' '].intercalate (x :: xs) = x ++ xs.flatMap fun y ↦ ' ' :: y := by
  induction xs generalizing x with
  | nil => simp
  | cons y xs ih =>
    rw [List.intercalate_cons_of_ne_nil (List.cons_ne_nil _ _), ih, List.flatMap_cons,
      List.append_assoc]
    rfl

/-- Appending words with a blank before each. -/
theorem toList_foldl_append (command : String) (words : List String) :
    (words.foldl (fun command w ↦ command ++ " " ++ w) command).toList =
      command.toList ++ (words.map String.toList).flatMap fun w ↦ ' ' :: w := by
  induction words generalizing command with
  | nil => simp
  | cons w words ih =>
    rw [List.foldl_cons, ih, List.map_cons, List.flatMap_cons, String.toList_append,
      String.toList_append, List.append_assoc, List.append_assoc]
    rfl

/-- The loop builds `SADD`, the key and the members, with spaces between them. -/
theorem toList_addSetCommand (key : String) (members : List String) :
    (addSetCommand key members).toList =
      [' '].intercalate ((["SADD", key] ++ members).map String.toList) := by
  rw [addSetCommand, toList_foldl_append, List.map_append, List.map_cons, List.cons_append,
    intercalate_cons_eq, String.toList_append]
  simp

/-- The loop builds `HMSET`, the key and the fields with their values, with spaces between them. -/
theorem toList_setHashCommand (key : String) (values : List KeyValue) :
    (setHashCommand key values).toList =
      [' '].intercalate ((["HMSET", key] ++ fieldArgs values).map String.toList) := by
  have hwords : ∀ command : String,
      values.foldl (fun command kv ↦ command ++ " " ++ kv.field ++ " " ++ kv.value) command =
        (fieldArgs values).foldl (fun command w ↦ command ++ " " ++ w) command := by
    induction values with
    | nil => exact fun _ ↦ rfl
    | cons kv values ih => exact fun command ↦ ih _
  rw [setHashCommand, hwords, toList_foldl_append, List.map_append, List.map_cons, List.cons_append,
    intercalate_cons_eq, String.toList_append]
  simp

/-- Fields and values that were laid out one after another are paired up again. -/
theorem pairUp_fieldArgs (values : List KeyValue) : pairUp (fieldArgs values) = values := by
  induction values with
  | nil => rfl
  | cons kv values ih => exact congrArg (kv :: ·) ih

/-- `HGETALL` is sent with the key it is given, whatever that is. -/
theorem redisvFormatCommand_hgetall (key : String) :
    redisvFormatCommand "HGETALL  %s" [key] = some (some ["HGETALL", key]) := by
  have hloop : formatLoop ("HGETALL  %s".toList.takeWhile (· ≠ '\x00')) [key] [] false [] =
      some (some [['H', 'G', 'E', 'T', 'A', 'L', 'L'], key.toList]) := by
    show formatLoop ['H', 'G', 'E', 'T', 'A', 'L', 'L', ' ', ' ', '%', 's'] [key] [] false [] = _
    simp [formatLoop]
  rw [redisvFormatCommand, hloop]
  simp

/-! ### What is kept -/

/-- A command whose format is good reaches the server with its arguments. -/
theorem redisCommand_of_eq {s : σ} {format : String} {args argv : List String}
    (h : redisvFormatCommand format args = some (some argv)) :
    redisCommand R ⟨s, false⟩ format args =
      some (⟨(R.command s argv).1, false⟩, some (R.command s argv).2) := by
  rw [redisCommand, h]
  rfl

theorem redisGetHashAll_of_array {s : σ} (h : (R.command s ["HGETALL", key]).2 =
    .array (fieldArgs values)) :
    redisGetHashAll R ⟨s, false⟩ key =
      some (⟨(R.command s ["HGETALL", key]).1, false⟩, values) := by
  rw [redisGetHashAll, redisCommand_of_eq (redisvFormatCommand_hgetall key)]
  simp only [Option.bind_eq_bind, Option.bind_some, h, pairUp_fieldArgs]
  rfl

/-- A reply of members is put behind the keys that the caller has. -/
theorem redisGetSet_of_array {s : σ}
    (hformat : redisvFormatCommand ("SMEMBERS " ++ key) [] = some (some ["SMEMBERS", key]))
    (h : (R.command s ["SMEMBERS", key]).2 = .array members) (keys : List String) :
    redisGetSet R ⟨s, false⟩ key keys =
      some (⟨(R.command s ["SMEMBERS", key]).1, false⟩, keys ++ members) := by
  rw [redisGetSet, redisCommand_of_eq hformat]
  simp only [Option.bind_eq_bind, Option.bind_some, h]
  rfl

/-- The part of a write that lies with the server. -/
theorem storesHash_iff (hR : R.Faithful) (hnodup : (values.map (·.field)).Nodup) :
    StoresHash R key values ↔ redisvFormatCommand (setHashCommand key values) [] =
      some (some (["HMSET", key] ++ fieldArgs values)) := by
  refine ⟨And.left, fun h ↦ ⟨h, fun s hs ↦ ?_⟩⟩
  obtain ⟨hset, hhash⟩ := hR.hmset s key values hs hnodup
  obtain ⟨got, hreply, hgot, hmem⟩ := hR.hgetall _ key hset
  refine ⟨⟨(R.command s (["HMSET", key] ++ fieldArgs values)).1, false⟩, ?_, _, got,
    redisGetHashAll_of_array hreply, fun kv hkv ↦ ?_, fun hnew ↦ ?_⟩
  · rw [redisSetHash, redisCommand_of_eq h]
    rfl
  · exact (hmem kv).2 ((hhash _ _).2 (Or.inl hkv))
  · refine (List.perm_ext_iff_of_nodup hgot (List.Nodup.of_map _ hnodup)).2 fun kv ↦ ?_
    rw [hmem, hhash, hnew]
    simp

/-- The key of a set that was written is a word that `SMEMBERS` can be followed by. -/
theorem redisvFormatCommand_smembers (hne : members ≠ [])
    (h : redisvFormatCommand (addSetCommand key members) [] =
      some (some (["SADD", key] ++ members))) :
    redisvFormatCommand ("SMEMBERS " ++ key) [] = some (some ["SMEMBERS", key]) := by
  rw [redisvFormatCommand_iff (by simp) (toList_addSetCommand key members)] at h
  obtain ⟨hwords, hpercent⟩ := h
  have hkey : '%' ∉ key.toList := by
    obtain ⟨w, ws, rfl⟩ := List.exists_cons_of_ne_nil hne
    rw [addSetCommand, toList_foldl_append, List.dropLast_append_of_ne_nil (by simp),
      String.toList_append, List.mem_append, List.mem_append, not_or, not_or] at hpercent
    exact hpercent.1.2
  have htoList : ("SMEMBERS " ++ key).toList =
      [' '].intercalate (["SMEMBERS", key].map String.toList) := by
    rw [String.toList_append]
    simp
  rw [redisvFormatCommand_iff (by simp) htoList]
  refine ⟨fun w hw ↦ ?_, fun hmem ↦ ?_⟩
  · rcases List.mem_cons.1 hw with rfl | hw
    · decide
    · rw [List.mem_singleton.1 hw]
      exact hwords key (by simp)
  · have hin := List.mem_of_mem_dropLast hmem
    rw [String.toList_append, List.mem_append] at hin
    exact hin.elim (absurd · (by decide)) hkey

/-- A set is stored if and only if `SADD`, the key and the members are what the format comes to. -/
theorem storesSet_iff (hR : R.Faithful) (hne : members ≠ []) :
    StoresSet R key members ↔ redisvFormatCommand (addSetCommand key members) [] =
      some (some (["SADD", key] ++ members)) := by
  refine ⟨And.left, fun h ↦ ⟨h, fun s hs ↦ ?_⟩⟩
  obtain ⟨hhash, hset⟩ := hR.sadd s key members hne hs
  obtain ⟨got, hreply, -, hmem⟩ := hR.smembers _ key hhash
  refine ⟨⟨(R.command s (["SADD", key] ++ members)).1, false⟩, ?_, _, _,
    redisGetSet_of_array (redisvFormatCommand_smembers hne h) hreply [], fun member ↦ ?_⟩
  · rw [redisAddSet, redisCommand_of_eq h]
    rfl
  · rw [List.nil_append, hmem, hset]

/-- **Redis writes.** On a faithful server: a hash is stored and read back as it was given if and
only if its key, its fields and its values are words and no `%` stands before the end of the
command; and a set likewise. -/
theorem redis_writes_iff (hR : R.Faithful) :
    (∀ (key : String) (values : List KeyValue), (values.map (·.field)).Nodup →
      (StoresHash R key values ↔ (∀ w ∈ key :: fieldArgs values, WordString w) ∧
        '%' ∉ (setHashCommand key values).toList.dropLast)) ∧
    ∀ (key : String) (members : List String), members ≠ [] →
      (StoresSet R key members ↔ (∀ w ∈ key :: members, WordString w) ∧
        '%' ∉ (addSetCommand key members).toList.dropLast) := by
  have hcommand : ∀ (name : String) (words : List String), WordString name →
      ((∀ w ∈ [name] ++ words, WordString w) ↔ ∀ w ∈ words, WordString w) :=
    fun name words hname ↦ List.forall_mem_cons.trans (and_iff_right hname)
  refine ⟨fun key values hnodup ↦ ?_, fun key members hne ↦ ?_⟩
  · rw [storesHash_iff hR hnodup, redisvFormatCommand_iff (by simp)
      (toList_setHashCommand key values)]
    exact and_congr_left' (hcommand "HMSET" (key :: fieldArgs values) (by decide))
  · rw [storesSet_iff hR hne, redisvFormatCommand_iff (by simp) (toList_addSetCommand key members)]
    exact and_congr_left' (hcommand "SADD" (key :: members) (by decide))

/-! ### A server in memory -/

/-- A server that keeps hashes and sets in memory. -/
def RedisServer.inMemory :
    RedisServer ((String → Std.ExtTreeMap String String) × (String → Std.ExtTreeSet String)) where
  command s
    | "HMSET" :: key :: args =>
      if s.2 key = ∅ then
        ((Function.update s.1 key ((pairUp args).foldl (fun hash kv ↦ hash.insert kv.field kv.value)
          (s.1 key)), s.2), .status "OK")
      else (s, .error "WRONGTYPE")
    | ["HGETALL", key] =>
      if s.2 key = ∅ then (s, .array (fieldArgs ((s.1 key).toList.map fun p ↦ ⟨p.1, p.2⟩)))
      else (s, .error "WRONGTYPE")
    | "SADD" :: key :: members =>
      if s.1 key = ∅ then
        ((s.1, Function.update s.2 key ((s.2 key).insertMany members)), .integer members.length)
      else (s, .error "WRONGTYPE")
    | ["SMEMBERS", key] =>
      if s.1 key = ∅ then (s, .array (s.2 key).toList) else (s, .error "WRONGTYPE")
    | _ => (s, .error "ERR unknown command")
  hash s key field := (s.1 key)[field]?
  set s key member := member ∈ s.2 key

/-- The in-memory server does what the commands are documented to do, so the assumption about the
server can be met. -/
theorem RedisServer.inMemory_faithful : RedisServer.inMemory.Faithful where
  hmset s key values hs hnodup := by
    have hempty : s.2 key = ∅ := Std.ExtTreeSet.eq_empty_iff_forall_not_mem.2 hs
    have hcommand : RedisServer.inMemory.command s (["HMSET", key] ++ fieldArgs values) =
        ((Function.update s.1 key (values.foldl (fun hash kv ↦ hash.insert kv.field kv.value)
          (s.1 key)), s.2), .status "OK") := by
      rw [show ["HMSET", key] ++ fieldArgs values = "HMSET" :: key :: fieldArgs values from rfl]
      show ite _ _ _ = _
      rw [if_pos hempty, pairUp_fieldArgs]
    rw [hcommand]
    refine ⟨hs, fun field value ↦ ?_⟩
    show (Function.update s.1 key _ key)[field]? = _ ↔ _
    rw [Function.update_self]
    rw [Indexes.getElem?_foldl_insert hnodup]
    exact or_congr_left ⟨fun ⟨kv, hkv, hfield, hvalue⟩ ↦ hfield ▸ hvalue ▸ hkv,
      fun h ↦ ⟨_, h, rfl, rfl⟩⟩
  hgetall s key hs := by
    have hempty : s.2 key = ∅ := Std.ExtTreeSet.eq_empty_iff_forall_not_mem.2 hs
    refine ⟨(s.1 key).toList.map fun p ↦ ⟨p.1, p.2⟩, ?_, ?_, fun kv ↦ ?_⟩
    · show (ite _ _ _ : _ × RedisReply).2 = _
      rw [if_pos hempty]
    · refine List.pairwise_map.2 (Std.ExtTreeMap.distinct_keys_toList.imp fun hne heq ↦ hne ?_)
      rw [KeyValue.mk.injEq] at heq
      exact Std.compare_eq_iff_eq.2 heq.1
    · rw [List.mem_map]
      show _ ↔ (s.1 key)[kv.field]? = some kv.value
      rw [← Std.ExtTreeMap.mem_toList_iff_getElem?_eq_some]
      exact ⟨fun ⟨p, hp, h⟩ ↦ h ▸ hp, fun h ↦ ⟨_, h, rfl⟩⟩
  sadd s key members hne hs := by
    have hempty : s.1 key = ∅ := Std.ExtTreeMap.ext_getElem? fun f ↦ hs f
    have hcommand : RedisServer.inMemory.command s (["SADD", key] ++ members) =
        ((s.1, Function.update s.2 key ((s.2 key).insertMany members)),
          .integer members.length) := by
      rw [show ["SADD", key] ++ members = "SADD" :: key :: members from rfl]
      show ite _ _ _ = _
      rw [if_pos hempty]
    rw [hcommand]
    refine ⟨hs, fun member ↦ ?_⟩
    show member ∈ Function.update s.2 key _ key ↔ member ∈ members ∨ member ∈ s.2 key
    rw [Function.update_self, Std.ExtTreeSet.mem_insertMany_list, or_comm, List.contains_iff_mem]
  smembers s key hs := by
    have hempty : s.1 key = ∅ := Std.ExtTreeMap.ext_getElem? fun f ↦ hs f
    refine ⟨(s.2 key).toList, ?_, ?_, fun member ↦ Std.ExtTreeSet.mem_toList⟩
    · show (ite _ _ _ : _ × RedisReply).2 = _
      rw [if_pos hempty]
    · exact Std.ExtTreeSet.distinct_toList.imp fun hne heq ↦ hne (Std.compare_eq_iff_eq.2 heq)

/-- A record and a set of ids, stored and read back. -/
theorem redis_writes_sample :
    StoresHash .inMemory "player_data:1" [⟨"m_user_id", "7"⟩, ⟨"m_player_name", "50%"⟩] ∧
      StoresSet .inMemory "player_data:m_user_id:7" ["1", "2"] :=
  ⟨((redis_writes_iff RedisServer.inMemory_faithful).1 _ _ (by decide)).2 (by decide),
    ((redis_writes_iff RedisServer.inMemory_faithful).2 _ _ (by decide)).2 (by decide)⟩

/-- A player whose name is empty: the next field takes the place of the value. -/
theorem hash_shifts_after_empty_value :
    let values : List KeyValue := [⟨"m_player_name", ""⟩, ⟨"m_playerLevel", "3"⟩]
    redisvFormatCommand (setHashCommand "player_data:1" values) [] =
        some (some ["HMSET", "player_data:1", "m_player_name", "m_playerLevel", "3"]) ∧
      ¬ StoresHash .inMemory "player_data:1" values := by
  intro values
  have hformat : redisvFormatCommand (setHashCommand "player_data:1" values) [] =
      some (some ["HMSET", "player_data:1", "m_player_name", "m_playerLevel", "3"]) := by decide
  refine ⟨hformat, fun h ↦ ?_⟩
  rw [StoresHash, hformat] at h
  exact absurd h.1 (by decide)

end QCLib
