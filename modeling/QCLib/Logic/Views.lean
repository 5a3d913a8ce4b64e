import QCLib.Logic.MapModule

/-!
# What the view routines do

The two loops of the map module, as relations on view sets. `SendDelViewPlayers` takes a set of
pairs out of mutual lists (`mem_viewSet_sendDelViewPlayers`). `SendAddViewPlayers` puts pairs in:
which ones depends on the cap and on the order of the list, but every new pair is one that was asked
for, and the lists stay mutual and capped (`sendAddViewPlayers_spec`); where there is room for
everybody, all of them go in (`sendAddViewPlayers_exact`).

Neither touches anything but view sets and sent messages (`Frame`).

A routine is described by what it does to the relation "is in the list of". Taking pairs out is
exact, because nothing limits it. Putting pairs in is limited by the cap, so `Adds` records which
turns of the loop did something, and the two results about it are an upper bound
(`sendAddViewPlayers_spec`) and, with room, an equality (`sendAddViewPlayers_exact`).
-/

namespace QCLib

namespace LogicServer

variable {σ : Type} {s s' s₁ s₂ : LogicServer σ} {id me him a b : ObjectId} {user : UserId}
  {f : ObjectSet → ObjectSet} {p : PlayerData} {mapData : PlayerMapData}

/-- Nothing but view sets and sent messages differs. -/
structure Frame (s s' : LogicServer σ) : Prop where
  hash : s'.userObjectIdHash = s.userObjectIdHash
  data : ∀ id : ObjectId,
    (s'.playerDataCache[id]?).map (fun p : PlayerData ↦ (p.baseData, p.mapData)) =
      (s.playerDataCache[id]?).map fun p : PlayerData ↦ (p.baseData, p.mapData)
  defult : s'.defultObjectSet = s.defultObjectSet
  gCount : s'.gCount = s.gCount
  db : s'.db = s.db
  map : s'.map = s.map

@[refl] theorem Frame.refl (s : LogicServer σ) : Frame s s := ⟨rfl, fun _ ↦ rfl, rfl, rfl, rfl, rfl⟩

/-- One access after another that changes views and messages only. -/
theorem Frame.trans (h : Frame s s₁) (h' : Frame s₁ s₂) : Frame s s₂ :=
  ⟨h'.hash.trans h.hash, fun id ↦ (h'.data id).trans (h.data id), h'.defult.trans h.defult,
    h'.gCount.trans h.gCount, h'.db.trans h.db, h'.map.trans h.map⟩

theorem Frame.getPlayerMapData (h : Frame s s') (id : ObjectId) :
    s'.getPlayerMapData id = s.getPlayerMapData id := by
  have := congrArg (Option.map Prod.snd) (h.data id)
  rw [Option.map_map, Option.map_map] at this
  exact this

theorem mem_iff_getPlayerMapData : id ∈ s.playerDataCache ↔ (s.getPlayerMapData id).isSome := by
  rw [LogicServer.getPlayerMapData, Option.isSome_map, Std.ExtTreeMap.isSome_getElem?_iff_mem]

theorem Frame.mem_iff (h : Frame s s') (id : ObjectId) :
    id ∈ s'.playerDataCache ↔ id ∈ s.playerDataCache := by
  rw [mem_iff_getPlayerMapData, mem_iff_getPlayerMapData, h.getPlayerMapData]

/-! ### One access -/

/-- A player that is not in the cache is asked for the default set. -/
theorem viewSet_of_notMem (h : id ∉ s.playerDataCache) : s.viewSet id = s.defultObjectSet := by
  rw [viewSet, getViewListPlayerSet, Std.ExtTreeMap.getElem?_eq_none h]

/-- With an empty default set, only cached players have anybody in view. -/
theorem mem_of_mem_viewSet (hdef : s.defultObjectSet = ∅) (h : b ∈ s.viewSet a) :
    a ∈ s.playerDataCache := by
  refine Decidable.byContradiction fun hmem ↦ ?_
  rw [viewSet_of_notMem hmem, hdef] at h
  exact Std.ExtTreeSet.not_mem_empty h

@[simp] theorem viewSet_sendMsgToPlayer {cmd : WholeCmd} {body : Body} :
    (s.sendMsgToPlayer user cmd body).viewSet id = s.viewSet id := rfl

theorem frame_sendMsgToPlayer (s : LogicServer σ) (user : UserId) (cmd : WholeCmd) (body : Body) :
    Frame s (s.sendMsgToPlayer user cmd body) := ⟨rfl, fun _ ↦ rfl, rfl, rfl, rfl, rfl⟩

theorem viewSet_modifyViewSet (hid : id ∈ s.playerDataCache) (j : ObjectId) :
    (s.modifyViewSet id f).viewSet j = if j = id then f (s.viewSet id) else s.viewSet j := by
  obtain ⟨p, hp⟩ := Option.isSome_iff_exists.1 (Std.ExtTreeMap.isSome_getElem?_iff_mem.2 hid)
  rw [modifyViewSet, if_pos hid]
  simp only [viewSet, getViewListPlayerSet, Std.ExtTreeMap.getElem?_modify, Std.compare_eq_iff_eq]
  split_ifs with h₁ h₂ h₂
  · subst h₁
    simp only [hp, Option.map_some]
  · exact absurd h₁.symm h₂
  · exact absurd h₂.symm h₁
  · rfl

/-- Writing to the view of a cached player changes no place. -/
theorem frame_modifyViewSet (hid : id ∈ s.playerDataCache) : Frame s (s.modifyViewSet id f) := by
  rw [modifyViewSet, if_pos hid]
  refine ⟨rfl, fun j ↦ ?_, rfl, rfl, rfl, rfl⟩
  simp only [Std.ExtTreeMap.getElem?_modify, Std.compare_eq_iff_eq]
  split_ifs with h
  · subst h
    rw [Option.map_map]
    rfl
  · rfl

/-! ### Taking pairs out -/

/-- The lists are mutual. -/
def Mutual (s : LogicServer σ) : Prop := ∀ a b, b ∈ s.viewSet a → a ∈ s.viewSet b

theorem frame_delViewPlayer (hdef : s.defultObjectSet = ∅) (user : UserId) (me him : ObjectId) :
    Frame s (s.delViewPlayer user me him) := by
  simp only [delViewPlayer]
  split_ifs with hin hback
  · have hf : Frame s ((s.modifyViewSet me (·.erase him)).sendMsgToPlayer user .delobj
        (.mapDelObject ⟨him⟩)) :=
      (frame_modifyViewSet (mem_of_mem_viewSet hdef hin)).trans (frame_sendMsgToPlayer ..)
    have hhim := mem_of_mem_viewSet (hf.defult.trans hdef) hback.2
    exact hf.trans ((frame_modifyViewSet hhim).trans (frame_sendMsgToPlayer ..))
  · exact (frame_modifyViewSet (mem_of_mem_viewSet hdef hin)).trans (frame_sendMsgToPlayer ..)
  · exact .refl s

/-- The disappearances of a step change views and messages only. -/
theorem frame_sendDelViewPlayers (hdef : s.defultObjectSet = ∅) (user : UserId) (me : ObjectId)
    (del : List ObjectId) : Frame s (s.sendDelViewPlayers user me del) := by
  induction del generalizing s with
  | nil => exact .refl s
  | cons him rest ih =>
    rw [sendDelViewPlayers]
    split_ifs
    · have hf := frame_delViewPlayer hdef user me him
      exact hf.trans (ih (hf.defult.trans hdef))
    · exact .refl s

/-- One turn: the player goes out of the other's list, and the other out of the player's. -/
private theorem mem_viewSet_delViewPlayer (hdef : s.defultObjectSet = ∅) (hmut : s.Mutual)
    (user : UserId) (me him a b : ObjectId) : b ∈ (s.delViewPlayer user me him).viewSet a ↔
      b ∈ s.viewSet a ∧ ¬ (a = me ∧ b = him) ∧ ¬ (b = me ∧ a = him) := by
  simp only [delViewPlayer]
  split_ifs with hin hback
  · -- Both lists are written; they are two, or the first write would have emptied the second test.
    have hme := mem_of_mem_viewSet hdef hin
    have hf : Frame s ((s.modifyViewSet me (·.erase him)).sendMsgToPlayer user .delobj
        (.mapDelObject ⟨him⟩)) := (frame_modifyViewSet hme).trans (frame_sendMsgToPlayer ..)
    have hhim := (hf.mem_iff him).2 (mem_of_mem_viewSet hdef (hmut _ _ hin))
    rw [viewSet_sendMsgToPlayer, viewSet_modifyViewSet hme] at hback
    have hne : him ≠ me := by
      intro h
      rw [if_pos h, h, ObjectSet.mem_erase_iff] at hback
      exact hback.2.1 rfl
    rw [viewSet_sendMsgToPlayer, viewSet_modifyViewSet hhim]
    simp only [viewSet_sendMsgToPlayer, viewSet_modifyViewSet hme, if_neg hne]
    split_ifs with ha ha'
    · subst ha
      rw [ObjectSet.mem_erase_iff]
      tauto
    · subst ha'
      rw [ObjectSet.mem_erase_iff]
      tauto
    · tauto
  · -- The lists are mutual, so the second one is the first.
    have hme := mem_of_mem_viewSet hdef hin
    have hself : him = me := by
      refine Decidable.byContradiction fun hne ↦ hback ?_
      rw [viewSet_sendMsgToPlayer, viewSet_modifyViewSet hme, if_neg hne]
      exact ⟨ObjectSet.size_pos_of_mem (hmut _ _ hin), hmut _ _ hin⟩
    subst hself
    rw [viewSet_sendMsgToPlayer, viewSet_modifyViewSet hme]
    split_ifs with ha
    · subst ha
      rw [ObjectSet.mem_erase_iff]
      tauto
    · tauto
  · refine ⟨fun h ↦ ⟨h, ?_, ?_⟩, fun h ↦ h.1⟩
    · rintro ⟨rfl, rfl⟩
      exact hin h
    · rintro ⟨rfl, rfl⟩
      exact hin (hmut _ _ h)

/-- Taking pairs out of mutual lists on both sides leaves them mutual. -/
theorem mutual_of_unlinked {P : ObjectId → Prop} (hmut : s.Mutual)
    (h : ∀ a b, b ∈ s'.viewSet a ↔ b ∈ s.viewSet a ∧ ¬ (a = me ∧ P b) ∧ ¬ (b = me ∧ P a)) :
    s'.Mutual := by
  intro a b hab
  obtain ⟨hb, h₁, h₂⟩ := (h a b).1 hab
  exact (h b a).2 ⟨hmut a b hb, h₂, h₁⟩

/-- **`SendDelViewPlayers`** takes exactly the listed pairs out of mutual lists. -/
theorem mem_viewSet_sendDelViewPlayers (hdef : s.defultObjectSet = ∅) (hmut : s.Mutual)
    (user : UserId) (me : ObjectId) (del : List ObjectId) (a b : ObjectId) :
    b ∈ (s.sendDelViewPlayers user me del).viewSet a ↔
      b ∈ s.viewSet a ∧ ¬ (a = me ∧ b ∈ del) ∧ ¬ (b = me ∧ a ∈ del) := by
  induction del generalizing s with
  | nil => simp [sendDelViewPlayers]
  | cons him rest ih =>
    rw [sendDelViewPlayers]
    split_ifs with hpos
    · have hv := mem_viewSet_delViewPlayer hdef hmut user me him
      rw [ih ((frame_delViewPlayer hdef user me him).defult.trans hdef)
        (mutual_of_unlinked hmut hv),
        hv, List.mem_cons, List.mem_cons]
      tauto
    · -- The loop stops early, when there is nobody left to take out.
      have hempty : ∀ b, b ∉ s.viewSet me := fun b hb ↦ hpos (ObjectSet.size_pos_of_mem hb)
      refine ⟨fun h ↦ ⟨h, ?_, ?_⟩, fun h ↦ h.1⟩
      · rintro ⟨rfl, -⟩
        exact hempty b h
      · rintro ⟨rfl, -⟩
        exact hempty a (hmut _ _ h)

/-! ### Telling about a move -/

/-- Telling the others of a move does not change who is in view. -/
theorem viewSet_sendMoveViewPlayers (cmd : ReqMove) :
    (s.sendMoveViewPlayers user me mapData cmd).viewSet id = s.viewSet id := by
  have hbroadcast : ∀ (users : List UserId) (s : LogicServer σ) (ack : Body),
      (s.broadcastMsg users .moveAck ack).viewSet id = s.viewSet id := by
    intro users
    induction users with
    | nil => exact fun _ _ ↦ rfl
    | cons u users ih => exact fun s ack ↦ ih (s.sendMsgToPlayer u .moveAck ack) ack
  exact hbroadcast _ s _

/-- Telling the others of a move changes the messages only. -/
theorem frame_sendMoveViewPlayers (s : LogicServer σ) (user : UserId) (me : ObjectId)
    (mapData : PlayerMapData) (cmd : ReqMove) :
    Frame s (s.sendMoveViewPlayers user me mapData cmd) := by
  have hbroadcast : ∀ (users : List UserId) (s : LogicServer σ) (ack : Body),
      Frame s (s.broadcastMsg users .moveAck ack) := by
    intro users
    induction users with
    | nil => exact fun s _ ↦ .refl s
    | cons u users ih => exact fun s ack ↦ (frame_sendMsgToPlayer ..).trans (ih _ ack)
  exact (hbroadcast _ s _).trans (frame_sendMsgToPlayer ..)

/-! ### Putting pairs in -/

/-- The tests that one turn of `SendAddViewPlayers` makes. -/
def CanLink (s : LogicServer σ) (me him : ObjectId) : Prop :=
  ((s.viewSet me).size < maxViewCount ∧ him ∉ s.viewSet me) ∧ him ∈ s.playerDataCache ∧
    (s.viewSet him).size < maxViewCount ∧ me ∉ s.viewSet me

/-- A turn changes nothing if one of its tests fails, whichever it is. -/
theorem addViewPlayer_of_not_canLink (h : ¬ s.CanLink me him) (user : UserId)
    (mapData : PlayerMapData) : s.addViewPlayer user me mapData him = s := by
  simp only [addViewPlayer]
  by_cases hmine : (s.viewSet me).size < maxViewCount ∧ him ∉ s.viewSet me
  · rw [if_pos hmine]
    cases hdata : s.getPlayerMapData him with
    | none => rfl
    | some objMapData =>
      have hlive : him ∈ s.playerDataCache := by rw [mem_iff_getPlayerMapData, hdata]; rfl
      exact if_neg fun hhis ↦ h ⟨hmine, hlive, hhis⟩
  · exact if_neg hmine

/-- A turn whose tests succeed links the two players. -/
theorem addViewPlayer_of_canLink (hme : me ∈ s.playerDataCache) (h : s.CanLink me him)
    (user : UserId) (mapData : PlayerMapData) :
    Frame s (s.addViewPlayer user me mapData him) ∧
      ∀ a b, b ∈ (s.addViewPlayer user me mapData him).viewSet a ↔
        b ∈ s.viewSet a ∨ (a = me ∧ b = him) ∨ (b = me ∧ a = him) := by
  obtain ⟨hmine, hlive, hhis⟩ := h
  obtain ⟨objMapData, hdata⟩ := Option.isSome_iff_exists.1 (mem_iff_getPlayerMapData.1 hlive)
  simp only [addViewPlayer, if_pos hmine, hdata, if_pos hhis]
  have hf₁ : Frame s ((s.modifyViewSet me (·.insert him)).sendMsgToPlayer user .addobj
      (addObject him objMapData)) := (frame_modifyViewSet hme).trans (frame_sendMsgToPlayer ..)
  have hlive₁ := (hf₁.mem_iff him).2 hlive
  refine ⟨hf₁.trans ((frame_modifyViewSet hlive₁).trans (frame_sendMsgToPlayer ..)), fun a b ↦ ?_⟩
  rw [viewSet_sendMsgToPlayer, viewSet_modifyViewSet hlive₁]
  simp only [viewSet_sendMsgToPlayer, viewSet_modifyViewSet hme]
  split_ifs with ha ha' ha'
  · subst ha ha'
    rw [ObjectSet.mem_insert_iff, ObjectSet.mem_insert_iff]
    tauto
  · subst ha
    rw [ObjectSet.mem_insert_iff]
    tauto
  · subst ha'
    rw [ObjectSet.mem_insert_iff]
    tauto
  · tauto

/-- What adding pairs between `me` and the listed players may have done. -/
structure Adds (me : ObjectId) (add : List ObjectId) (s s' : LogicServer σ) : Prop where
  frame : Frame s s'
  mono : ∀ a b, b ∈ s.viewSet a → b ∈ s'.viewSet a
  only : ∀ a b, b ∈ s'.viewSet a → b ∈ s.viewSet a ∨
    (a = me ∧ b ∈ add ∧ b ∈ s.playerDataCache) ∨ (b = me ∧ a ∈ add ∧ a ∈ s.playerDataCache)
  keepsMutual : s.Mutual → s'.Mutual
  capped : (∀ a, (s.viewSet a).size ≤ maxViewCount) → ∀ a, (s'.viewSet a).size ≤ maxViewCount

private theorem adds_nil : Adds me [] s s :=
  ⟨.refl s, fun _ _ h ↦ h, fun _ _ h ↦ Or.inl h, fun h ↦ h, fun h ↦ h⟩

private theorem Adds.skip {add : List ObjectId} (h : Adds me add s s') :
    Adds me (him :: add) s s' := by
  refine ⟨h.frame, h.mono, fun a b hb ↦ ?_, h.keepsMutual, h.capped⟩
  rcases h.only a b hb with hb | ⟨ha, hb, hlive⟩ | ⟨hb, ha, hlive⟩
  · exact Or.inl hb
  · exact Or.inr (Or.inl ⟨ha, List.mem_cons_of_mem _ hb, hlive⟩)
  · exact Or.inr (Or.inr ⟨hb, List.mem_cons_of_mem _ ha, hlive⟩)

/-- One more element stays within the cap if there was room for it. -/
private theorem size_le_of_insert {t u : ObjectSet} {i : ObjectId} (hlt : t.size < maxViewCount)
    (h : ∀ j, j ∈ u → j ∈ t ∨ j = i) : u.size ≤ maxViewCount := by
  have hle : u.size ≤ (t.insert i).size :=
    ObjectSet.size_le_of_subset fun j hj ↦ ObjectSet.mem_insert_iff.2 (h j hj).symm
  have hins : (t.insert i).size ≤ t.size + 1 := Std.ExtTreeSet.size_insert_le
  omega

private theorem Adds.link {add : List ObjectId} (hlink : s.CanLink me him) (hframe : Frame s s₁)
    (hv : ∀ a b, b ∈ s₁.viewSet a ↔ b ∈ s.viewSet a ∨ (a = me ∧ b = him) ∨ (b = me ∧ a = him))
    (h : Adds me add s₁ s') : Adds me (him :: add) s s' := by
  have hlive := hlink.2.1
  refine ⟨hframe.trans h.frame, fun a b hb ↦ h.mono a b ((hv a b).2 (Or.inl hb)), fun a b hb ↦ ?_,
    fun hmut ↦ h.keepsMutual fun a b hb ↦ ?_, fun hcap ↦ h.capped fun a ↦ ?_⟩
  · rcases h.only a b hb with hb | ⟨ha, hb, hl⟩ | ⟨hb, ha, hl⟩
    · rcases (hv a b).1 hb with hb | ⟨ha, rfl⟩ | ⟨hb, rfl⟩
      · exact Or.inl hb
      · exact Or.inr (Or.inl ⟨ha, List.mem_cons_self, hlive⟩)
      · exact Or.inr (Or.inr ⟨hb, List.mem_cons_self, hlive⟩)
    · exact Or.inr (Or.inl ⟨ha, List.mem_cons_of_mem _ hb, (hframe.mem_iff b).1 hl⟩)
    · exact Or.inr (Or.inr ⟨hb, List.mem_cons_of_mem _ ha, (hframe.mem_iff a).1 hl⟩)
  · rcases (hv a b).1 hb with hb | hb | hb
    · exact (hv b a).2 (Or.inl (hmut a b hb))
    · exact (hv b a).2 (Or.inr (Or.inr hb))
    · exact (hv b a).2 (Or.inr (Or.inl hb))
  · -- Both sides were tested for room before the pair went in.
    by_cases ha : a = me
    · subst ha
      refine size_le_of_insert (t := s.viewSet a) (i := him) hlink.1.1 fun j hj ↦ ?_
      rcases (hv a j).1 hj with hj | ⟨-, hj⟩ | ⟨hj, ha⟩
      · exact Or.inl hj
      · exact Or.inr hj
      · exact Or.inr (hj.trans ha)
    · by_cases ha' : a = him
      · subst ha'
        refine size_le_of_insert (t := s.viewSet a) (i := me) hlink.2.2.1 fun j hj ↦ ?_
        rcases (hv a j).1 hj with hj | ⟨hc, -⟩ | ⟨hj, -⟩
        · exact Or.inl hj
        · exact absurd hc ha
        · exact Or.inr hj
      · refine (ObjectSet.size_le_of_subset fun j hj ↦ ?_).trans (hcap a)
        rcases (hv a j).1 hj with hj | ⟨hc, -⟩ | ⟨-, hc⟩
        · exact hj
        · exact absurd hc ha
        · exact absurd hc ha'

/-- **`SendAddViewPlayers`** only adds listed pairs, on both sides, and within the cap. -/
theorem sendAddViewPlayers_spec (hme : me ∈ s.playerDataCache) (user : UserId)
    (mapData : PlayerMapData) (add : List ObjectId) :
    Adds me add s (s.sendAddViewPlayers user me mapData add) := by
  induction add generalizing s with
  | nil => exact adds_nil
  | cons him rest ih =>
    show Adds me (him :: rest) s
      ((s.addViewPlayer user me mapData him).sendAddViewPlayers user me mapData rest)
    by_cases hlink : s.CanLink me him
    · obtain ⟨hframe, hv⟩ := addViewPlayer_of_canLink hme hlink user mapData
      exact .link hlink hframe hv (ih ((hframe.mem_iff me).2 hme))
    · rw [addViewPlayer_of_not_canLink hlink]
      exact (ih hme).skip

/-- **`SendAddViewPlayers` adds every listed pair where there is room.** Room is given by a relation
`W` that bounds all view sets from above, the listed pairs included, and that relates nobody to more
than the cap allows. -/
theorem sendAddViewPlayers_exact {W : ObjectId → ObjectId → Prop} (hme : me ∈ s.playerDataCache)
    (hmut : s.Mutual) (hself : me ∉ s.viewSet me) (hsub : ∀ a b, b ∈ s.viewSet a → W a b)
    (hcap : ∀ a (t : ObjectSet), (∀ b, b ∈ t → W a b) → t.size ≤ maxViewCount) (user : UserId)
    (mapData : PlayerMapData) (add : List ObjectId)
    (hadd : ∀ b, b ∈ add → b ≠ me ∧ b ∈ s.playerDataCache ∧ W me b ∧ W b me) (a b : ObjectId) :
    b ∈ (s.sendAddViewPlayers user me mapData add).viewSet a ↔
      b ∈ s.viewSet a ∨ (a = me ∧ b ∈ add) ∨ (b = me ∧ a ∈ add) := by
  induction add generalizing s with
  | nil => simp [sendAddViewPlayers]
  | cons him rest ih =>
    show b ∈ ((s.addViewPlayer user me mapData him).sendAddViewPlayers user me mapData
      rest).viewSet a
      ↔ _
    obtain ⟨hne, hlive, hWme, hWhim⟩ := hadd him List.mem_cons_self
    have hrest : ∀ b, b ∈ rest → b ≠ me ∧ b ∈ s.playerDataCache ∧ W me b ∧ W b me :=
      fun b hb ↦ hadd b (List.mem_cons_of_mem _ hb)
    by_cases hin : him ∈ s.viewSet me
    · -- Already linked, so the turn is skipped, and the pair is in the lists on both sides.
      have hback := hmut _ _ hin
      rw [addViewPlayer_of_not_canLink (fun h ↦ h.1.2 hin), ih hme hmut hself hsub hrest]
      simp only [List.mem_cons]
      constructor
      · tauto
      · rintro (h | ⟨rfl, rfl | h⟩ | ⟨rfl, rfl | h⟩) <;> tauto
    · -- One more element than a view set has is still within the cap.
      have hroom : ∀ {c d}, d ∉ s.viewSet c → W c d → (s.viewSet c).size < maxViewCount := by
        intro c d hd hW
        have hle := hcap c ((s.viewSet c).insert d) fun j hj ↦ by
          rcases ObjectSet.mem_insert_iff.1 hj with rfl | hj
          · exact hW
          · exact hsub c j hj
        rw [ObjectSet.size_insert_of_notMem hd] at hle
        omega
      have hback : me ∉ s.viewSet him := fun h ↦ hin (hmut _ _ h)
      have hlink : s.CanLink me him := ⟨⟨hroom hin hWme, hin⟩, hlive, hroom hback hWhim, hself⟩
      obtain ⟨hframe, hv⟩ := addViewPlayer_of_canLink hme hlink user mapData
      rw [ih ((hframe.mem_iff me).2 hme)]
      · rw [hv]
        simp only [List.mem_cons]
        tauto
      · intro c d hd
        rcases (hv c d).1 hd with hd | hd | hd
        · exact (hv d c).2 (Or.inl (hmut c d hd))
        · exact (hv d c).2 (Or.inr (Or.inr hd))
        · exact (hv d c).2 (Or.inr (Or.inl hd))
      · intro h
        rcases (hv me me).1 h with h | ⟨-, h⟩ | ⟨-, h⟩
        · exact hself h
        · exact hne h.symm
        · exact hne h.symm
      · intro c d hd
        rcases (hv c d).1 hd with hd | ⟨rfl, rfl⟩ | ⟨rfl, rfl⟩
        · exact hsub c d hd
        · exact hWme
        · exact hWhim
      · intro c hc
        obtain ⟨h₁, h₂, h₃⟩ := hrest c hc
        exact ⟨h₁, (hframe.mem_iff c).2 h₂, h₃⟩

end LogicServer

end QCLib
