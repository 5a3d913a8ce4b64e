import QCLib.Foundations.StepRun
import QCLib.Logic.DataCache
import QCLib.Logic.Placement
import QCLib.Logic.RecordText

/-!
# Object ids over restarts

`get_next_obj_id` counts. The counter is in memory; every ten minutes `SaveTempData` writes it to
the store, and a process that starts takes up the number that `LoadTempData` finds there. In
between, a crash loses what has been counted.

A process is either down, with only the store left, or up, with its logic thread somewhere in
`NewAndSavePlayerData`; it can crash between any two accesses. The invariant is that the counter is
nowhere below the id of a stored role (`Ahead`), and the places where it can fail are the restarts
and the wrap of the counter.

The counter is written by a timer of the logic thread and not by the code that counts, so the
distance between the stored counter and the ids that were given out has no bound. `Fresh` asks of a
step that an id that it issues is not that of a stored role. The condition, `Counts`, is met where a
restart finds a counter that is not below the stored roles, and where the counter is not at its end:
then `Ahead` is kept, also by a crash.
-/

open StepRun

namespace QCLib

open Stringstream

/-- Extraction into a `uint64_t`. -/
def Stringstream.extractUInt64 (text : String) (target : UInt64) : UInt64 :=
  match text.toList.dropWhile isSpace with
  | [] => target
  | cs =>
    match signed cs with
    | (_, none) => 0
    | (neg, some n) =>
      if 2 ^ 64 ≤ n then UInt64.ofNat (2 ^ 64 - 1)
      else if neg then -UInt64.ofNat n else UInt64.ofNat n

theorem extractUInt64_toString (x target : UInt64) :
    extractUInt64 (toString x.toNat) target = x := by
  have htok := token_toString_nat x.toNat
  rw [extractUInt64, htok.dropWhile_eq]
  split
  · next hnil => exact absurd hnil htok.toList_ne_nil
  · rw [toList_toString_nat, signed_toDigits]
    show (if 2 ^ 64 ≤ x.toNat then _ else UInt64.ofNat x.toNat) = x
    rw [if_neg (by have := x.toNat_lt; omega), UInt64.ofNat_toNat]

/-! ### The counter in the store -/

/-- The key `r_temporary_record:g_count`. -/
def temporaryKey : String := "r_temporary_record" ++ ":" ++ "g_count"

namespace LogicServer

variable {σ : Type}

/-- `SaveTempData`: the counter is printed into a text and stored. -/
def saveTempData (nosql : NoSqlDBCache σ) (s : LogicServer σ) : LogicServer σ :=
  { s with
    db := nosql.setDataCache s.db temporaryKey
      [⟨"key_name", "g_count"⟩, ⟨"key_value", extractString (toString s.gCount.toNat) "g_count"⟩] }

/-- The loop of `LoadTempData`, which takes the entries in pairs. -/
def loadTempLoop : List KeyValue → UInt64 → Option UInt64
  | [], gCount => some gCount
  | [kv], gCount => if kv.field = "key_name" then none else some gCount
  | name :: value :: rest, gCount =>
    loadTempLoop rest
      (if name.field = "key_name" ∧ value.field = "key_value" ∧ name.value = "g_count" then
        extractUInt64 value.value gCount
      else gCount)

/-- `LoadTempData`: the counter is read from the fields that were stored, if there are any. -/
def loadTempData (nosql : NoSqlDBCache σ) (s : LogicServer σ) : Option (LogicServer σ) :=
  (loadTempLoop (nosql.getDataCacheAll s.db temporaryKey) s.gCount).map fun gCount ↦
    { s with gCount }

end LogicServer

/-! ### Processes -/

open LogicServer

/-- How far `NewAndSavePlayerData` has come. -/
inductive Creating where
  | idle
  | issued (newData : PlayerDataMsg)
  | added (newData : PlayerDataMsg)
  | saved (newData : PlayerDataMsg)
  deriving DecidableEq, Repr

/-- A process of the logic server. What is left of one that is down is the store. -/
inductive Process (σ : Type) where
  | down (db : σ)
  | up (s : LogicServer σ) (creating : Creating)

/-- What can happen to a process. -/
inductive Act where
  | restart
  | issue (newData : PlayerDataMsg)
  | add
  | save
  | index
  | saveTemp
  | crash
  deriving DecidableEq, Repr

namespace Process

variable {σ : Type} (nosql : NoSqlDBCache σ) (map : GameMap)

/-- One access to the store or the cache, or a crash, which leaves the store and nothing else. -/
def step : Process σ → Act → Option (Process σ)
  | .down db, .restart => ((LogicServer.start map 0 db).loadTempData nosql).map fun s ↦ .up s .idle
  | .up s .idle, .issue newData =>
    some (.up s.getNextObjId.1 (.issued { newData with objectId := s.getNextObjId.2 }))
  | .up s (.issued newData), .add =>
    let added := s.addPlayerData newData
    some (.up added.1 (if added.2 then .added newData else .idle))
  | .up s (.added newData), .save =>
    some (.up (s.savePlayerDataToDb nosql newData) (.saved newData))
  | .up s (.saved newData), .index =>
    let db := nosql.addSetCache s.db (userKey newData.userId) [toString newData.objectId.toInt]
    some (.up { s with db } .idle)
  | .up s creating, .saveTemp => some (.up (s.saveTempData nosql) creating)
  | .up s _, .crash => some (.down s.db)
  | _, _ => none

/-- A creation that nothing comes in between is a call of `NewAndSavePlayerData`. -/
theorem run_create (s : LogicServer σ) (newData : PlayerDataMsg) :
    let added := s.getNextObjId.1.addPlayerData { newData with objectId := s.getNextObjId.2 }
    run (step nosql map) (.up s .idle)
        (.issue newData :: .add :: if added.2 then [.save, .index] else []) =
      some (.up (s.newAndSavePlayerData nosql newData).1 .idle) := by
  intro added
  rw [newAndSavePlayerData]
  show run (step nosql map) (.up added.1 (if added.2 then _ else .idle)) _ =
    some (.up (if added.2 then _ else (added.1, _)).1 .idle)
  cases added.2 <;> rfl

/-- There is a role under `player_data:<id>`. -/
def Stored (db : σ) (id : ObjectId) : Prop := nosql.getDataCacheAll db (playerKey id) ≠ []

instance (db : σ) (id : ObjectId) : Decidable (Stored nosql db id) :=
  inferInstanceAs (Decidable (_ ≠ _))

/-- **The id is fresh.** What `get_next_obj_id` returns is not `0` and not the id of a stored role,
and what `NewAndSavePlayerData` writes overwrites nothing. -/
def Fresh : Process σ → Act → Prop
  | .up s _, .issue _ => s.getNextObjId.2 ≠ 0 ∧ ¬ Stored nosql s.db s.getNextObjId.2
  | .up s (.added newData), .save => ¬ Stored nosql s.db newData.objectId
  | _, _ => True

/-- The store has the counter, its name before its value, and it is not below any stored role. -/
def Reloads (db : σ) : Prop :=
  ∀ id, Stored nosql db id → ∃ n : UInt64, id.toInt ≤ n.toNat ∧
    nosql.getDataCacheAll db temporaryKey =
      [⟨"key_name", "g_count"⟩, ⟨"key_value", toString n.toNat⟩]

instance : ∀ p a, Decidable (Fresh nosql p a)
  | .up _ _, .issue _ => inferInstanceAs (Decidable (_ ∧ _))
  | .up _ (.added _), .save => inferInstanceAs (Decidable (¬ _))
  | .down _, _ => isTrue trivial
  | .up _ _, .restart => isTrue trivial
  | .up _ _, .add => isTrue trivial
  | .up _ .idle, .save => isTrue trivial
  | .up _ (.issued _), .save => isTrue trivial
  | .up _ (.saved _), .save => isTrue trivial
  | .up _ _, .index => isTrue trivial
  | .up _ _, .saveTemp => isTrue trivial
  | .up _ _, .crash => isTrue trivial

/-- The counter is not at its end when an id is issued, and a process that starts takes up a counter
that is not below any stored role. -/
def Counts : Process σ → Act → Prop
  | .up s _, .issue _ => s.gCount < maxCount
  | .down db, .restart => Reloads nosql db
  | _, _ => True

end Process

/-- The store keeps the hashes under other keys when it writes one, in whatever order it lists
them. -/
structure NoSqlDBCache.Keeps {σ : Type} (nosql : NoSqlDBCache σ) : Prop where
  setDataCache : ∀ db key values key', key' ≠ key →
    (nosql.getDataCacheAll (nosql.setDataCache db key values) key').Perm
      (nosql.getDataCacheAll db key')
  addSetCache : ∀ db key members key',
    (nosql.getDataCacheAll (nosql.addSetCache db key members) key').Perm
      (nosql.getDataCacheAll db key')

/-! ### The counter stays ahead -/

namespace Process

variable {σ : Type} {nosql : NoSqlDBCache σ} {map : GameMap} {p p' : Process σ} {a : Act}
  {s : LogicServer σ}

/-- Below its end, the counter gives out the next number. -/
theorem getNextObjId_of_lt (h : s.gCount < maxCount) :
    s.getNextObjId.2.toInt = s.gCount.toNat + 1 ∧
      s.getNextObjId.1 = { s with gCount := s.gCount + 1 } ∧
      (s.gCount + 1).toNat = s.gCount.toNat + 1 := by
  have hlt : s.gCount.toNat < 2 ^ 56 - 1 := UInt64.lt_iff_toNat_lt.1 h
  have hsucc : (s.gCount + 1).toNat = s.gCount.toNat + 1 := by
    rw [UInt64.toNat_add, UInt64.toNat_one]
    omega
  refine ⟨?_, ?_, hsucc⟩
  · show ((0 : UInt64) <<< 56 ||| if s.gCount < maxCount then s.gCount + 1 else 0).toInt64.toInt = _
    rw [if_pos h, UInt64.zero_shiftLeft, UInt64.zero_or,
      ← UInt64.ofNat_toNat (x := s.gCount + 1), hsucc,
      UInt64.toInt64_ofNat', Int64.toInt_ofNat_of_lt (by omega)]
    rfl
  · show { s with gCount := if s.gCount < maxCount then s.gCount + 1 else 0 } = _
    rw [if_pos h]

theorem playerKey_injective {id id' : ObjectId} (h : playerKey id = playerKey id') : id = id' := by
  simp only [playerKey, ← String.toList_inj, String.toList_append, List.append_cancel_left_eq] at h
  rw [String.toList_inj] at h
  have hsigned := congrArg (fun t : String ↦ signed t.toList) h
  simp only [signed_toString, Prod.mk.injEq, Option.some.injEq, decide_eq_decide] at hsigned
  refine Int64.toInt_inj.1 ?_
  omega

/-- No role has the key that the counter is stored under. -/
theorem playerKey_ne_temporaryKey (id : ObjectId) : playerKey id ≠ temporaryKey := by
  intro h
  have hhead : (playerKey id).toList.head? = temporaryKey.toList.head? := by rw [h]
  have hplayer : (playerKey id).toList.head? = some 'p' := by
    rw [playerKey, String.toList_append, String.toList_append]
    rfl
  rw [hplayer] at hhead
  exact absurd hhead (by decide)

/-- **The counter is ahead** of every stored role, and of the one on its way to the store. -/
def Ahead (nosql : NoSqlDBCache σ) : Process σ → Prop
  | .down _ => True
  | .up s creating => (∀ id, Stored nosql s.db id → id.toInt ≤ s.gCount.toNat) ∧
    match creating with
    | .issued newData | .added newData =>
      newData.objectId.toInt = s.gCount.toNat ∧ ¬ Stored nosql s.db newData.objectId
    | .idle | .saved _ => True

/-- Whether a role is stored does not depend on the order in which the store lists its fields. -/
theorem stored_iff_of_perm {db db' : σ} {id : ObjectId}
    (h : (nosql.getDataCacheAll db' (playerKey id)).Perm
      (nosql.getDataCacheAll db (playerKey id))) :
    Stored nosql db' id ↔ Stored nosql db id := by
  rw [Stored, Stored, Ne, Ne, ← List.length_eq_zero_iff, ← List.length_eq_zero_iff, h.length_eq]

/-- `LoadTempData` takes the counter up from what was stored. -/
theorem loadTempData_of_reply {n : UInt64} (h : nosql.getDataCacheAll s.db temporaryKey =
    [⟨"key_name", "g_count"⟩, ⟨"key_value", toString n.toNat⟩]) :
    s.loadTempData nosql = some { s with gCount := n } := by
  rw [loadTempData, h]
  show some { s with gCount := extractUInt64 (toString n.toNat) s.gCount } = _
  rw [extractUInt64_toString]

/-- Loading the counter leaves the store alone. -/
theorem db_of_loadTempData {s' : LogicServer σ} (h : s.loadTempData nosql = some s') :
    s'.db = s.db := by
  obtain ⟨gCount, -, rfl⟩ := Option.map_eq_some_iff.1 h
  rfl

/-- Putting a record into the cache changes neither the store nor the counter. -/
theorem addPlayerData_frame (s : LogicServer σ) (playdata : PlayerDataMsg) :
    (s.addPlayerData playdata).1.db = s.db ∧ (s.addPlayerData playdata).1.gCount = s.gCount := by
  rw [addPlayerData]
  split <;> exact ⟨rfl, rfl⟩

/-- A step keeps the counter ahead; only the restart and the issue need the condition. -/
theorem Ahead.step (hkeeps : nosql.Keeps) (h : p.Ahead nosql) (hok : p.Counts nosql a)
    (hs : p.step nosql map a = some p') : p'.Ahead nosql := by
  unfold Process.step at hs
  -- The cases are the lines of `Process.step`, in their order.
  split at hs
  · next db =>
    -- A process that has just started has nobody on the way.
    obtain ⟨s, hload, rfl⟩ := Option.map_eq_some_iff.1 hs
    refine ⟨fun id hstored ↦ ?_, trivial⟩
    rw [db_of_loadTempData hload] at hstored
    obtain ⟨n, hle, hreply⟩ := hok id hstored
    obtain rfl := Option.some.inj ((loadTempData_of_reply hreply).symm.trans hload)
    exact hle
  · next s newData =>
    obtain rfl := Option.some.inj hs
    obtain ⟨hid, hs', hsucc⟩ := getNextObjId_of_lt hok
    rw [Ahead, hs', hsucc]
    refine ⟨fun id hstored ↦ ?_, ?_, fun hstored ↦ ?_⟩
    · have := h.1 id hstored
      omega
    · rw [hid]
      rfl
    · have := h.1 _ hstored
      rw [hid] at this
      omega
  · next s newData =>
    obtain rfl := Option.some.inj hs
    obtain ⟨hdb, hcount⟩ := addPlayerData_frame s newData
    show (∀ id, Stored nosql (s.addPlayerData newData).1.db id →
      id.toInt ≤ (s.addPlayerData newData).1.gCount.toNat) ∧ _
    rw [hdb, hcount]
    refine ⟨h.1, ?_⟩
    cases (s.addPlayerData newData).2 with
    | true => exact h.2
    | false => trivial
  · next s newData =>
    obtain rfl := Option.some.inj hs
    obtain ⟨hle, hid, -⟩ := h
    refine ⟨fun id hstored ↦ ?_, trivial⟩
    rcases eq_or_ne id newData.objectId with rfl | hne
    · exact hid.le
    · refine hle id ((stored_iff_of_perm ?_).1 hstored)
      exact hkeeps.setDataCache _ _ _ _ fun hkey ↦ hne (playerKey_injective hkey)
  · next s newData =>
    obtain rfl := Option.some.inj hs
    refine ⟨fun id hstored ↦ h.1 id ((stored_iff_of_perm ?_).1 hstored), trivial⟩
    exact hkeeps.addSetCache _ _ _ _
  · next s creating =>
    obtain rfl := Option.some.inj hs
    have hiff : ∀ id, Stored nosql (s.saveTempData nosql).db id ↔ Stored nosql s.db id := fun id ↦
      stored_iff_of_perm (hkeeps.setDataCache _ _ _ _ (playerKey_ne_temporaryKey id))
    refine ⟨fun id hstored ↦ h.1 id ((hiff id).1 hstored), ?_⟩
    cases creating with
    | idle | saved newData => trivial
    | issued newData | added newData => exact ⟨h.2.1, fun hstored ↦ h.2.2 ((hiff _).1 hstored)⟩
  · obtain rfl := Option.some.inj hs
    trivial
  · cases hs

/-- An id that is ahead of the stored roles is fresh. -/
theorem Ahead.fresh (h : p.Ahead nosql) (hok : p.Counts nosql a) : p.Fresh nosql a := by
  unfold Fresh
  split
  · obtain ⟨hid, -, -⟩ := getNextObjId_of_lt hok
    refine ⟨fun hzero ↦ ?_, fun hstored ↦ ?_⟩
    · rw [hzero, Int64.toInt_zero] at hid
      omega
    · have := h.1 _ hstored
      omega
  · exact h.2.2
  · trivial

/-- **No id is issued twice** in a run in which the counter does not reach its end and every restart
finds a counter that is not below the stored roles, its name before its value. -/
theorem fresh_of_counts (hkeeps : nosql.Keeps) {db : σ} {l : List Act}
    (hok : Guarded (Process.step nosql map) (Counts nosql) (.down db) l) :
    Guarded (Process.step nosql map) (Fresh nosql) (.down db) l := by
  have hahead : Guarded (Process.step nosql map) (fun p _ ↦ p.Ahead nosql) (.down db) l :=
    guarded_inv (fun p a p' h hok hs ↦ h.step hkeeps hok hs) trivial hok
  exact (hahead.and hok).mono fun p a h ↦ h.1.fresh h.2

/-! ### A restart without a saved counter -/

/-- A role is created, and the process crashes before the counter has been saved. -/
def lostCounter : List Act :=
  [.restart, .issue { userId := 7 }, .add, .save, .index, .crash, .restart, .issue { userId := 8 }]

/-- A crash before the counter was saved: an id is given out twice. -/
theorem lostCounter_reissues : ¬ Guarded (Process.step .inMemory sampleMap) (Fresh .inMemory)
    (.down ([], [])) lostCounter := by
  decide +kernel

/-! ### A restart with a saved counter -/

/-- The in-memory store keeps what it was given, so the assumption about the store can be met. -/
theorem inMemory_keeps : NoSqlDBCache.inMemory.Keeps where
  setDataCache db key values key' hne := by
    show (((_ :: db.1).lookup key').getD []).Perm _
    rw [List.lookup_cons, beq_eq_false_iff_ne.2 hne]
    exact .refl _
  addSetCache _ _ _ _ := .refl _

/-- A store in memory that holds nothing, or the counter at `1` and no role but that with id `1`. -/
def OneRole : Process (List (String × List KeyValue) × List (String × List String)) → Prop
  | .up s _ => s.gCount < maxCount
  | .down db => (∀ e ∈ db.1, e.1 = temporaryKey ∨ e.1 = playerKey 1) ∧
    (db.1 = [] ∨ NoSqlDBCache.inMemory.getDataCacheAll db temporaryKey =
      [⟨"key_name", "g_count"⟩, ⟨"key_value", toString (1 : UInt64).toNat⟩])

instance : ∀ p, Decidable (OneRole p)
  | .up _ _ => inferInstanceAs (Decidable (_ < _))
  | .down _ => inferInstanceAs (Decidable (_ ∧ _))

/-- A state with one role under the counter's first number counts. -/
theorem OneRole.counts {p : Process _} (h : OneRole p) : p.Counts .inMemory a := by
  unfold Counts
  split
  · exact h
  · next db =>
    intro id hstored
    obtain ⟨hkeys, hreply⟩ := h
    cases hlookup : db.1.lookup (playerKey id) with
    | none =>
      refine absurd ?_ hstored
      show (db.1.lookup (playerKey id)).getD [] = []
      rw [hlookup, Option.getD_none]
    | some values =>
      obtain ⟨l₁, l₂, hsplit, -⟩ := List.lookup_eq_some_iff.1 hlookup
      have hmem : (playerKey id, values) ∈ db.1 := by
        rw [hsplit]
        exact List.mem_append_right _ List.mem_cons_self
      have hid : id = 1 :=
        playerKey_injective ((hkeys _ hmem).resolve_left (playerKey_ne_temporaryKey id))
      refine ⟨1, by rw [hid]; decide, hreply.resolve_left (List.ne_nil_of_mem hmem)⟩
  · trivial

/-- The counter is saved before the crash, and the next roles get new ids. -/
def savedCounter : List Act :=
  [.restart, .issue { userId := 7 }, .add, .save, .saveTemp, .index, .crash,
    .restart, .issue { userId := 8 }, .add, .save, .index, .issue { userId := 7 }, .add, .save]

/-- A restart after the counter was saved: the next id is new. -/
theorem savedCounter_fresh : Guarded (Process.step .inMemory sampleMap) (Fresh .inMemory)
    (.down ([], [])) savedCounter := by
  refine fresh_of_counts inMemory_keeps (Guarded.mono (fun _ _ h ↦ OneRole.counts h) ?_)
  decide +kernel

end Process

end QCLib
