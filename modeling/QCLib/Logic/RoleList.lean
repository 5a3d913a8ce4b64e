import QCLib.Logic.Messages
import QCLib.Logic.PreLogin
import Mathlib.Data.List.Permutation

/-!
# The list of roles

`LoginModule::PreLogin` answers a user with an entry for each of the first four roles. All of them
are read into one record, which is not cleared in between, and whether a role was found at all is
not looked at. So a member that the record of a role lacks keeps what the roles before had in it.

Each member that is sent is a `Member`: a field of a stored record that either determines it or
leaves it alone. The list is right exactly when no member is left over from another role with a
value other than the initial one (`rolesApart_iff`).

The loop is compared with a loop that begins every turn with a fresh record (`ownEntry`). The two
differ by what is left over from the records before, and a member is left over if an earlier record
has it, the present one lacks it, and no record in between has it (`LeavesNothing`).
`leavesNothing_iff` is said for one member, whichever it is, and used six times.
-/

namespace QCLib

open Stringstream

namespace LoginModule

/-- `AckLogin`. -/
structure AckLogin where
  errorcode : Int32
  playercount : Int32
  playerInfoArray : List PlayerInfo
  deriving DecidableEq, Repr

/-- The entry that `PreLogin` makes of its record. -/
def entry (x : PlayerDataPreLogin) : PlayerInfo where
  playername := x.playerName
  playerlevel := x.playerLevel
  playerjob := x.playerJob.toInt32
  playercountry := x.playerCountry.toInt32
  playeronlyid := x.objectId
  lastlogintime := x.lastLoginTime.toInt32

section Program

variable {σ : Type} (nosql : NoSqlStore σ)

/-- The loop of `PreLogin`, from index `i` on. -/
def preLoginLoop (db : σ) : ℕ → List String → PlayerDataPreLogin → AckLogin → AckLogin
  | _, [], _, loginAck => loginAck
  | i, id :: playerList, playerPreInfo, loginAck =>
    -- the result of `GetPreLoginPlayerInfo` is dropped
    let playerPreInfo := (getPreLoginPlayerInfo nosql db id playerPreInfo).1
    let loginAck := { loginAck with
      playerInfoArray := loginAck.playerInfoArray ++ [entry playerPreInfo] }
    if i ≥ 3 then loginAck else preLoginLoop db (i + 1) playerList playerPreInfo loginAck

/-- `LoginModule::PreLogin`: what the user is answered who is named in the login command. -/
def preLogin (db : σ) (userId : UserId) : AckLogin :=
  let playerList := getRoleIds nosql db userId
  let loginAck : AckLogin :=
    { errorcode := 0, playercount := Int32.ofNat playerList.length, playerInfoArray := [] }
  preLoginLoop nosql db 0 playerList {} loginAck

/-- The record that is stored for a role id, no fields if there is none. -/
def roleRecord (db : σ) (id : String) : List KeyValue := nosql.getDataCacheAll db (roleKey id)

/-- The records that entries are made for. -/
def listedRecords (db : σ) (userId : UserId) : List (List KeyValue) :=
  ((getRoleIds nosql db userId).take 4).map (roleRecord nosql db)

/-- The entry of a role by itself. -/
def ownEntry (record : List KeyValue) : PlayerInfo :=
  entry (PlayerDataPreLogin.mapToStruct {} record)

/-- Every entry is made of the record of its role, and of nothing else. -/
def RolesApart (db : σ) (userId : UserId) : Prop :=
  (preLogin nosql db userId).playerInfoArray = (listedRecords nosql db userId).map ownEntry

end Program

/-! ### Members -/

/-- A text that an extraction takes nothing from. -/
def Blank (text : String) : Prop := text.toList.dropWhile Stringstream.isSpace = []

instance (text : String) : Decidable (Blank text) := inferInstanceAs (Decidable (_ = _))

/-- A member of the record, with the field that it is read from. A text that is not blank determines
it. -/
structure Member (α : Type) where
  field : String
  get : PlayerDataPreLogin → α
  extract : String → α → α
  get_setField : ∀ x kv, get (x.setField kv) =
    if kv.field = field then extract kv.value (get x) else get x
  extract_of_blank : ∀ text target, Blank text → extract text target = target
  extract_of_not_blank : ∀ text target target', ¬ Blank text →
    extract text target = extract text target'

namespace Member

variable {α : Type} (m : Member α) {x y : PlayerDataPreLogin} {record : List KeyValue}
  {records : List (List KeyValue)}

/-- A record determines the member. -/
def Sets (record : List KeyValue) : Prop := ∃ kv ∈ record, kv.field = m.field ∧ ¬ Blank kv.value

instance (record : List KeyValue) : Decidable (m.Sets record) :=
  inferInstanceAs (Decidable (∃ kv ∈ record, _))

/-- Where a record lacks the member, the nearest record before it that has it holds the initial
value. -/
def LeavesNothing (records : List (List KeyValue)) : Prop :=
  ∀ before owner between record after,
    records = before ++ owner :: (between ++ record :: after) → m.Sets owner →
      (∀ other ∈ between, ¬ m.Sets other) → ¬ m.Sets record →
        m.get (PlayerDataPreLogin.mapToStruct {} owner) = m.get {}

/-- A record that lacks the member leaves it alone. -/
theorem get_of_not_sets (h : ¬ m.Sets record) (x : PlayerDataPreLogin) :
    m.get (x.mapToStruct record) = m.get x := by
  induction record generalizing x with
  | nil => rfl
  | cons kv record ih =>
    have htail : ¬ m.Sets record := fun ⟨kv', hmem, hset⟩ ↦
      h ⟨kv', List.mem_cons_of_mem _ hmem, hset⟩
    show m.get ((x.setField kv).mapToStruct record) = m.get x
    rw [ih htail, m.get_setField]
    split_ifs with hfield
    · exact m.extract_of_blank _ _
        (by_contra fun hblank ↦ h ⟨kv, List.mem_cons_self, hfield, hblank⟩)
    · rfl

/-- **A record that has the member** determines it, whatever was there. -/
theorem get_of_sets (h : m.Sets record) (x y : PlayerDataPreLogin) :
    m.get (x.mapToStruct record) = m.get (y.mapToStruct record) := by
  -- the last field that sets it decides
  induction record generalizing x y with
  | nil =>
    obtain ⟨kv, hmem, -⟩ := h
    exact absurd hmem List.not_mem_nil
  | cons kv record ih =>
    show m.get ((x.setField kv).mapToStruct record) = m.get ((y.setField kv).mapToStruct record)
    by_cases htail : m.Sets record
    · exact ih htail _ _
    · obtain ⟨kv', hmem, hfield, hblank⟩ := h
      obtain rfl : kv' = kv := by
        rcases List.mem_cons.1 hmem with heq | hmem
        · exact heq
        · exact absurd ⟨kv', hmem, hfield, hblank⟩ htail
      rw [m.get_of_not_sets htail, m.get_of_not_sets htail, m.get_setField, m.get_setField,
        if_pos hfield, if_pos hfield]
      exact m.extract_of_not_blank _ _ _ hblank

/-- Records that lack the member, one after the other. -/
theorem get_foldl_of_not_sets (h : ∀ record ∈ records, ¬ m.Sets record) (x : PlayerDataPreLogin) :
    m.get (records.foldl PlayerDataPreLogin.mapToStruct x) = m.get x := by
  induction records generalizing x with
  | nil => rfl
  | cons record records ih =>
    rw [List.foldl_cons, ih fun r hr ↦ h r (List.mem_cons_of_mem _ hr),
      m.get_of_not_sets (h record List.mem_cons_self)]

/-- Either no record has the member, or there is a last one that has. -/
theorem exists_last_sets (records : List (List KeyValue)) :
    (∀ record ∈ records, ¬ m.Sets record) ∨
      ∃ before owner after, records = before ++ owner :: after ∧ m.Sets owner ∧
        ∀ record ∈ after, ¬ m.Sets record := by
  induction records with
  | nil => exact .inl fun _ h ↦ absurd h List.not_mem_nil
  | cons record records ih =>
    rcases ih with hnone | ⟨before, owner, after, rfl, howner, hafter⟩
    · by_cases hset : m.Sets record
      · exact .inr ⟨[], record, records, rfl, hset, hnone⟩
      · exact .inl (List.forall_mem_cons.2 ⟨hset, hnone⟩)
    · exact .inr ⟨record :: before, owner, after, rfl, howner, hafter⟩

/-- **A member is right** behind every record exactly when nothing is left over in it. -/
theorem leavesNothing_iff : m.LeavesNothing records ↔
    ∀ before record after, records = before ++ record :: after →
      m.get ((before.foldl PlayerDataPreLogin.mapToStruct {}).mapToStruct record) =
        m.get (PlayerDataPreLogin.mapToStruct {} record) := by
  constructor
  · rintro h before record after rfl
    by_cases hset : m.Sets record
    · exact m.get_of_sets hset _ _
    rw [m.get_of_not_sets hset, m.get_of_not_sets hset]
    rcases m.exists_last_sets before with hnone | ⟨before, owner, between, rfl, howner, hbetween⟩
    · exact m.get_foldl_of_not_sets hnone _
    · rw [List.foldl_append, List.foldl_cons, m.get_foldl_of_not_sets hbetween,
        m.get_of_sets howner _ {}]
      exact h before owner between record after (by simp) howner hbetween hset
  · rintro h before owner between record after rfl howner hbetween hset
    have hget := h (before ++ owner :: between) record after (by simp)
    rwa [m.get_of_not_sets hset, m.get_of_not_sets hset, List.foldl_append, List.foldl_cons,
      m.get_foldl_of_not_sets hbetween, m.get_of_sets howner _ {}] at hget

end Member

/-! ### The members that are sent -/

section Extraction

variable {lo hi target target' : ℤ} {text : String}

/-- A text without a number leaves the variable as it is, because the stream fails before it is
written. -/
theorem extractInt_of_blank (h : Blank text) : extractInt lo hi text target = target := by
  rw [extractInt, show text.toList.dropWhile Stringstream.isSpace = [] from h]

/-- Any other text replaces the variable, whatever was in it. -/
theorem extractInt_of_not_blank (h : ¬ Blank text) :
    extractInt lo hi text target = extractInt lo hi text target' := by
  obtain ⟨c, cs, hcs⟩ := List.exists_cons_of_ne_nil h
  simp only [extractInt, hcs]

/-- A text without a number leaves an unsigned variable too. -/
theorem extractUInt32_of_blank (h : Blank text) (target : UInt32) :
    extractUInt32 text target = target := by
  rw [extractUInt32, show text.toList.dropWhile Stringstream.isSpace = [] from h]

theorem extractUInt32_of_not_blank (h : ¬ Blank text) (target target' : UInt32) :
    extractUInt32 text target = extractUInt32 text target' := by
  obtain ⟨c, cs, hcs⟩ := List.exists_cons_of_ne_nil h
  simp only [extractUInt32, hcs]

theorem extractString_of_blank (h : Blank text) (target : String) :
    extractString text target = target := by
  rw [extractString, show text.toList.dropWhile Stringstream.isSpace = [] from h]

theorem extractString_of_not_blank (h : ¬ Blank text) (target target' : String) :
    extractString text target = extractString text target' := by
  obtain ⟨c, cs, hcs⟩ := List.exists_cons_of_ne_nil h
  simp only [extractString, hcs]

end Extraction

namespace Member

/-- `m_object_id`. -/
def objectId : Member ObjectId where
  field := "m_object_id"
  get := (·.objectId)
  extract := extractInt64
  get_setField x kv := by
    by_cases h : kv.field = "m_object_id"
    · simp only [PlayerDataPreLogin.setField, if_pos h]
    · simp only [PlayerDataPreLogin.setField, if_neg h]
      split_ifs <;> rfl
  extract_of_blank text target h := by rw [extractInt64, extractInt_of_blank h, Int64.ofInt_toInt]
  extract_of_not_blank text target target' h := by
    rw [extractInt64, extractInt64, extractInt_of_not_blank h]

/-- `m_player_name`. -/
def playerName : Member String where
  field := "m_player_name"
  get := (·.playerName)
  extract := extractString
  get_setField x kv := by
    by_cases h : kv.field = "m_player_name"
    · simp [PlayerDataPreLogin.setField, h]
    · simp only [PlayerDataPreLogin.setField, if_neg h]
      split_ifs <;> rfl
  extract_of_blank text target h := extractString_of_blank h target
  extract_of_not_blank text target target' h := extractString_of_not_blank h target target'

/-- `m_playerLevel`. -/
def playerLevel : Member Int32 where
  field := "m_playerLevel"
  get := (·.playerLevel)
  extract := extractInt32
  get_setField x kv := by
    by_cases h : kv.field = "m_playerLevel"
    · simp [PlayerDataPreLogin.setField, h]
    · simp only [PlayerDataPreLogin.setField, if_neg h]
      split_ifs <;> rfl
  extract_of_blank text target h := by rw [extractInt32, extractInt_of_blank h, Int32.ofInt_toInt]
  extract_of_not_blank text target target' h := by
    rw [extractInt32, extractInt32, extractInt_of_not_blank h]

/-- `m_playerJob`. -/
def playerJob : Member UInt32 where
  field := "m_playerJob"
  get := (·.playerJob)
  extract := extractUInt32
  get_setField x kv := by
    by_cases h : kv.field = "m_playerJob"
    · simp [PlayerDataPreLogin.setField, h]
    · simp only [PlayerDataPreLogin.setField, if_neg h]
      split_ifs <;> rfl
  extract_of_blank text target h := extractUInt32_of_blank h target
  extract_of_not_blank text target target' h := extractUInt32_of_not_blank h target target'

/-- `m_playerCountry`. -/
def playerCountry : Member UInt32 where
  field := "m_playerCountry"
  get := (·.playerCountry)
  extract := extractUInt32
  get_setField x kv := by
    by_cases h : kv.field = "m_playerCountry"
    · simp [PlayerDataPreLogin.setField, h]
    · simp only [PlayerDataPreLogin.setField, if_neg h]
      split_ifs <;> rfl
  extract_of_blank text target h := extractUInt32_of_blank h target
  extract_of_not_blank text target target' h := extractUInt32_of_not_blank h target target'

/-- `m_lastLoginTime`. -/
def lastLoginTime : Member UInt32 where
  field := "m_lastLoginTime"
  get := (·.lastLoginTime)
  extract := extractUInt32
  get_setField x kv := by
    by_cases h : kv.field = "m_lastLoginTime"
    · simp [PlayerDataPreLogin.setField, h]
    · simp only [PlayerDataPreLogin.setField, if_neg h]
      split_ifs <;> rfl
  extract_of_blank text target h := extractUInt32_of_blank h target
  extract_of_not_blank text target target' h := extractUInt32_of_not_blank h target target'

end Member

/-- Nothing is left over in a member that is sent. The user id is not. -/
structure NothingLeft (records : List (List KeyValue)) : Prop where
  playerName : Member.playerName.LeavesNothing records
  playerLevel : Member.playerLevel.LeavesNothing records
  playerJob : Member.playerJob.LeavesNothing records
  playerCountry : Member.playerCountry.LeavesNothing records
  objectId : Member.objectId.LeavesNothing records
  lastLoginTime : Member.lastLoginTime.LeavesNothing records

theorem toInt32_inj {a b : UInt32} : a.toInt32 = b.toInt32 ↔ a = b := by
  refine ⟨fun h ↦ ?_, congrArg _⟩
  rw [← UInt32.toUInt32_toInt32 a, h, UInt32.toUInt32_toInt32]

/-- Two entries agree if and only if the members that are sent do. -/
theorem entry_eq_iff {x y : PlayerDataPreLogin} : entry x = entry y ↔
    x.playerName = y.playerName ∧ x.playerLevel = y.playerLevel ∧ x.playerJob = y.playerJob ∧
      x.playerCountry = y.playerCountry ∧ x.objectId = y.objectId ∧
        x.lastLoginTime = y.lastLoginTime := by
  simp only [entry, PlayerInfo.mk.injEq, toInt32_inj]

/-! ### The loop -/

/-- The entries for some records, on top of what the record holds. -/
def entries : PlayerDataPreLogin → List (List KeyValue) → List PlayerInfo
  | _, [] => []
  | x, record :: records => entry (x.mapToStruct record) :: entries (x.mapToStruct record) records

variable {σ : Type} {nosql : NoSqlStore σ} {db : σ} {userId : UserId}
  {records : List (List KeyValue)}

/-- What is brought is the role's record, read into the variable that the caller passed. -/
theorem getPreLoginPlayerInfo_fst (id : String) (x : PlayerDataPreLogin) :
    (getPreLoginPlayerInfo nosql db id x).1 = x.mapToStruct (roleRecord nosql db id) := by
  simp only [getPreLoginPlayerInfo]
  split_ifs with h
  · rfl
  · rw [roleRecord, List.length_eq_zero_iff.1 (Nat.le_zero.1 (Nat.not_lt.1 h))]
    rfl

/-- **The loop** adds an entry for each role, up to the fourth. -/
theorem preLoginLoop_eq (nosql : NoSqlStore σ) (db : σ) {i : ℕ} (hi : i ≤ 3) (ids : List String)
    (x : PlayerDataPreLogin)
    (loginAck : AckLogin) :
    (preLoginLoop nosql db i ids x loginAck).playerInfoArray = loginAck.playerInfoArray ++
      entries x ((ids.take (4 - i)).map (roleRecord nosql db)) := by
  induction ids generalizing i x loginAck with
  | nil => rw [preLoginLoop, List.take_nil, List.map_nil, entries, List.append_nil]
  | cons id ids ih =>
    obtain ⟨n, hn⟩ : ∃ n, 4 - i = n + 1 := ⟨3 - i, by omega⟩
    rw [hn, List.take_succ_cons, List.map_cons, entries, preLoginLoop]
    rw [getPreLoginPlayerInfo_fst]
    split_ifs with hbreak
    · rw [show n = 0 by omega, List.take_zero, List.map_nil, entries]
    · rw [ih (by omega), show 4 - (i + 1) = n by omega, List.append_assoc, List.singleton_append]

/-- The loop reuses one variable, so every record has to bring each member that the entries before
it have set. -/
theorem entries_eq_iff (records : List (List KeyValue)) (x : PlayerDataPreLogin) :
    entries x records = records.map ownEntry ↔
      ∀ before record after, records = before ++ record :: after →
        entry ((before.foldl PlayerDataPreLogin.mapToStruct x).mapToStruct record) =
          ownEntry record := by
  induction records generalizing x with
  | nil => exact iff_of_true rfl fun before record after h ↦ by simp at h
  | cons record records ih =>
    rw [entries, List.map_cons, List.cons.injEq, ih]
    constructor
    · rintro ⟨hfirst, hrest⟩ before record' after h
      cases before with
      | nil =>
        obtain ⟨rfl, -⟩ := List.cons.inj h
        exact hfirst
      | cons record'' before =>
        obtain ⟨rfl, htail⟩ := List.cons.inj h
        exact hrest before record' after htail
    · intro h
      exact ⟨h [] record records rfl, fun before record' after heq ↦
        h (record :: before) record' after (by rw [heq]; rfl)⟩

/-- **When the roles are kept apart**: the variable that the loop reuses carries nothing from one
record to the next, in any member that is sent. -/
theorem rolesApart_iff (nosql : NoSqlStore σ) (db : σ) (userId : UserId) :
    RolesApart nosql db userId ↔ NothingLeft (listedRecords nosql db userId) := by
  have hloop := preLoginLoop_eq nosql db (Nat.zero_le 3)
    (getRoleIds nosql db userId) {}
    { errorcode := 0, playercount := Int32.ofNat (getRoleIds nosql db userId).length,
      playerInfoArray := [] }
  have harray : (preLogin nosql db userId).playerInfoArray =
      entries {} (listedRecords nosql db userId) := hloop
  rw [RolesApart, harray, entries_eq_iff]
  constructor
  · intro h
    have hmembers := fun before record after heq ↦ entry_eq_iff.1 (h before record after heq)
    exact
      { playerName := (Member.leavesNothing_iff _).2 fun b r a heq ↦ (hmembers b r a heq).1
        playerLevel := (Member.leavesNothing_iff _).2 fun b r a heq ↦ (hmembers b r a heq).2.1
        playerJob := (Member.leavesNothing_iff _).2 fun b r a heq ↦ (hmembers b r a heq).2.2.1
        playerCountry :=
          (Member.leavesNothing_iff _).2 fun b r a heq ↦ (hmembers b r a heq).2.2.2.1
        objectId := (Member.leavesNothing_iff _).2 fun b r a heq ↦ (hmembers b r a heq).2.2.2.2.1
        lastLoginTime :=
          (Member.leavesNothing_iff _).2 fun b r a heq ↦ (hmembers b r a heq).2.2.2.2.2 }
  · intro h before record after heq
    exact entry_eq_iff.2
      ⟨(Member.leavesNothing_iff _).1 h.playerName before record after heq,
        (Member.leavesNothing_iff _).1 h.playerLevel before record after heq,
        (Member.leavesNothing_iff _).1 h.playerJob before record after heq,
        (Member.leavesNothing_iff _).1 h.playerCountry before record after heq,
        (Member.leavesNothing_iff _).1 h.objectId before record after heq,
        (Member.leavesNothing_iff _).1 h.lastLoginTime before record after heq⟩

/-! ### Two roles -/

section TwoRoles

variable {contents : σ → String → RedisEntry}

/-- Of a hash with one field, that field is read. -/
theorem getDataCacheAll_singleton (hnosql : nosql.Faithful contents) {key field value : String}
    (h : (contents db key).field = Function.update (fun _ ↦ none) field (some value)) :
    nosql.getDataCacheAll db key = [⟨field, value⟩] := by
  obtain ⟨hnodup, hmem⟩ := hnosql.getDataCacheAll db key
  refine List.perm_singleton.1 ((List.perm_ext_iff_of_nodup (List.Nodup.of_map _ hnodup)
    (List.nodup_singleton _)).2 fun kv ↦ ?_)
  rw [hmem, h, List.mem_singleton, Function.update_apply]
  split_ifs with hfield
  · rw [Option.some_inj, KeyValue.mk.injEq]
    exact ⟨fun hvalue ↦ ⟨hfield, hvalue.symm⟩, fun hkv ↦ hkv.2.symm⟩
  · exact iff_of_false not_false fun hkv ↦ hfield (congrArg KeyValue.field hkv)

/-- A role without a level and one without a name: whichever is read last gets what it lacks from
the other. -/
theorem not_rolesApart_of_pair (hnosql : nosql.Faithful contents)
    (hroles : (contents db (userKey userId)).members = {member | member ∈ ["1", "2"]})
    (hname : (contents db (roleKey "1")).field =
      Function.update (fun _ ↦ none) "m_player_name" (some "a"))
    (hlevel : (contents db (roleKey "2")).field =
      Function.update (fun _ ↦ none) "m_playerLevel" (some "5")) :
    ¬ RolesApart nosql db userId := by
  have hrecord1 : roleRecord nosql db "1" = [⟨"m_player_name", "a"⟩] :=
    getDataCacheAll_singleton hnosql hname
  have hrecord2 : roleRecord nosql db "2" = [⟨"m_playerLevel", "5"⟩] :=
    getDataCacheAll_singleton hnosql hlevel
  obtain ⟨hnodup, hmem⟩ := hnosql.getSetCache db (userKey userId)
  have hperm : (getRoleIds nosql db userId).Perm ["1", "2"] :=
    (List.perm_ext_iff_of_nodup hnodup (by decide)).2 fun id ↦ by rw [hmem, hroles]; rfl
  rw [rolesApart_iff]
  rintro ⟨hnames, hlevels, -, -, -, -⟩
  rcases List.perm_pair.1 hperm with hids | hids
  · have hrecords : listedRecords nosql db userId =
        [[⟨"m_player_name", "a"⟩], [⟨"m_playerLevel", "5"⟩]] := by
      rw [listedRecords, hids, ← hrecord1, ← hrecord2]
      rfl
    have hleft := hnames [] _ [] _ [] hrecords (by decide) (fun _ h ↦ absurd h List.not_mem_nil)
      (by decide)
    exact absurd hleft (by decide)
  · have hrecords : listedRecords nosql db userId =
        [[⟨"m_playerLevel", "5"⟩], [⟨"m_player_name", "a"⟩]] := by
      rw [listedRecords, hids, ← hrecord1, ← hrecord2]
      rfl
    have hleft := hlevels [] _ [] _ [] hrecords (by decide) (fun _ h ↦ absurd h List.not_mem_nil)
      (by decide)
    exact absurd hleft (by decide)

end TwoRoles

/-- A store in which the user `7` has two roles whose records are incomplete. -/
def twoRoles : Std.ExtTreeMap String RedisValue :=
  let db := NoSqlStore.inMemory.setDataCache ∅ (roleKey "1") [⟨"m_player_name", "a"⟩]
  let db := NoSqlStore.inMemory.setDataCache db (roleKey "2") [⟨"m_playerLevel", "5"⟩]
  NoSqlStore.inMemory.addSetCache db (userKey 7) ["1", "2"]

/-- The store of the example, as a function from its keys. -/
theorem twoRoles_contents : inMemoryContents twoRoles =
    Function.update (Function.update (Function.update (fun _ ↦ .absent) (roleKey "1")
      (.hash (Function.update (fun _ ↦ none) "m_player_name" (some "a")))) (roleKey "2")
        (.hash (Function.update (fun _ ↦ none) "m_playerLevel" (some "5")))) (userKey 7)
          (.set {member | member ∈ ["1", "2"]}) := by
  have hempty : inMemoryContents ∅ = fun _ ↦ .absent :=
    funext fun key ↦ inMemoryContents_of_none Std.ExtTreeMap.getElem?_empty
  have hkeys : roleKey "2" ≠ roleKey "1" ∧ userKey 7 ≠ roleKey "1" ∧ userKey 7 ≠ roleKey "2" := by
    decide +kernel
  rw [twoRoles, NoSqlStore.inMemory_faithful.addSetCache, NoSqlStore.inMemory_faithful.setDataCache,
    NoSqlStore.inMemory_faithful.setDataCache, hempty, Function.update_of_ne hkeys.2.2,
    Function.update_of_ne hkeys.2.1, Function.update_of_ne hkeys.1]
  rfl

/-- The second of them gets the name of the first, or the first the level of the second. -/
theorem not_rolesApart_twoRoles : ¬ RolesApart NoSqlStore.inMemory twoRoles 7 := by
  have hkeys : roleKey "2" ≠ roleKey "1" ∧ roleKey "1" ≠ userKey 7 ∧ roleKey "2" ≠ userKey 7 := by
    decide +kernel
  refine not_rolesApart_of_pair NoSqlStore.inMemory_faithful ?_ ?_ ?_
  · rw [twoRoles_contents, Function.update_self]
    rfl
  · rw [twoRoles_contents, Function.update_of_ne hkeys.2.1, Function.update_of_ne hkeys.1.symm,
      Function.update_self]
    rfl
  · rw [twoRoles_contents, Function.update_of_ne hkeys.2.2, Function.update_self]
    rfl

end LoginModule

end QCLib
