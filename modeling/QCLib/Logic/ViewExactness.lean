import QCLib.Logic.ViewSafety

/-!
# When view lists are exact

A view list is **exact** when it holds everybody else who is registered in its owner's window. With
room under the cap every handler keeps the lists exact (`Exact`), except two:

* a player that gets ready a second time is told about itself, and puts itself into its own list;
* a move before the player is ready registers it, but only reports who has come into sight, so those
  who were in sight before stay missing.

`KeepsViews` excludes just these two, and along runs that it guards the lists are exact.

The invariant `Exact` adds to `Placed` that the view list of a player is the set of the others on
the board who are near it, or empty while the player is not on the board. `Exact.exists_step` goes
through the handlers; in each the towers report who comes into sight and who leaves it, and the
routines of `Logic.Views` do what was reported as long as there is room.

That the two exceptions are real is shown by two runs, and that there are no others by the
equivalence (`viewExactness`), whose other direction is `Exact.keepsViews_of_viewsExact`.
-/

open CSemantics Interest StepRun

namespace QCLib

namespace LogicServer

variable {σ : Type} {nosql : NoSqlDBCache σ} {g : TowerInfo} {s s' s₁ : LogicServer σ}
  {id me a b : ObjectId} {user : UserId} {d : PlayerMapData} {cmd : ReqMove} {p : Point}
  {B B' : Board ObjectId (Int × Int)} {t : Int × Int}

/-! ### Who is on the map, and around whom -/

/-- The area-of-interest manager has the player registered as a watcher. -/
def OnMap (s : LogicServer σ) (a : ObjectId) : Prop :=
  ∃ tower ∈ s.map.toweraoi.towers, a ∈ tower.watchers

instance (s : LogicServer σ) (a : ObjectId) : Decidable (s.OnMap a) :=
  inferInstanceAs (Decidable (∃ tower ∈ s.map.toweraoi.towers, a ∈ tower.watchers))

/-- The player's tower lies in the window of the cell's tower. -/
def InWindow (s : LogicServer σ) (p : Point) (b : ObjectId) : Bool :=
  match s.getPlayerMapData b with
  | some d => s.map.toweraoi.Near (s.map.toweraoi.towerOf p) (s.map.toweraoi.towerOf d.location)
  | none => false

/-- The players on the map in the window of a cell. -/
def around (s : LogicServer σ) (p : Point) : List ObjectId :=
  s.playerDataCache.keys.filter fun b ↦ s.OnMap b && s.InWindow p b

/-- No player on the map has more others in its window than a view list may hold. -/
def Roomy (s : LogicServer σ) : Prop :=
  ∀ a ∈ s.playerDataCache.keys, s.OnMap a → ∀ d ∈ s.getPlayerMapData a,
    ((s.around d.location).erase a).length ≤ maxViewCount

instance (s : LogicServer σ) : Decidable s.Roomy := List.decidableBAll _ _

/-- Nobody on the map is in the windows of both cells. -/
def Apart (s : LogicServer σ) (p q : Point) : Prop := ∀ b ∈ s.around p, b ∉ s.around q

instance (s : LogicServer σ) (p q : Point) : Decidable (s.Apart p q) := List.decidableBAll _ _

/-- Every player on the map has in view exactly the others on the map in its window. -/
def ViewsExact (s : LogicServer σ) : Prop :=
  ∀ a d, s.OnMap a → s.getPlayerMapData a = some d →
    ∀ b, b ∈ s.viewSet a ↔ b ≠ a ∧ b ∈ s.around d.location

/-- On a represented board, being on the map is being registered. -/
theorem Placed.onMap_iff (hg : g.Sound) (hN : 0 ≤ g.towerYN) (hs : s.Placed g B) :
    s.OnMap a ↔ ∃ t, B.At a t := by
  have hinfo := hs.info
  subst hinfo
  constructor
  · intro ⟨tower, hmem, ha⟩
    obtain ⟨t, ht, rfl⟩ := TowerAoi.exists_tower_of_mem hg.square hs.represents.length hN hmem
    obtain ⟨s₀, hat, -⟩ := hs.watches_iff.1 ((hs.represents.mem_watchers t ht a).1 ha)
    exact ⟨s₀, hat⟩
  · intro ⟨t, hat⟩
    have ht := hs.represents.inGrid a _ t hat.choose_spec
    refine ⟨_, TowerAoi.tower_mem hs.indexed ht, (hs.represents.mem_watchers t ht a).2 ?_⟩
    exact hs.watches_iff.2 ⟨t, hat, hg.near_refl t⟩

/-- Who is around a position is who stands on a near tower. -/
theorem Placed.mem_around (hg : g.Sound) (hN : 0 ≤ g.towerYN) (hs : s.Placed g B) :
    b ∈ s.around p ↔ B.Within g.Near (g.towerOf p) b := by
  have hinfo := hs.info
  rw [around, List.mem_filter, Bool.and_eq_true, decide_eq_true_eq, hs.onMap_iff hg hN, InWindow,
    Std.ExtTreeMap.mem_keys]
  constructor
  · intro ⟨_, ⟨t, hat⟩, hwin⟩
    obtain ⟨d, hd, rfl⟩ := hs.of_at hat
    rw [hd, hinfo] at hwin
    exact ⟨_, hat, of_decide_eq_true hwin⟩
  · intro ⟨t, hat, hn⟩
    obtain ⟨d, hd, rfl⟩ := hs.of_at hat
    refine ⟨mem_iff_getPlayerMapData.2 (Option.isSome_iff_exists.2 ⟨d, hd⟩), ⟨_, hat⟩, ?_⟩
    rw [hd, hinfo]
    exact decide_eq_true hn

/-- The cap, on the board: nobody meets more others than a view list may hold. -/
def Room (g : TowerInfo) (B : Board ObjectId (Int × Int)) : Prop :=
  ∀ a (t : ObjectSet), (∀ b, b ∈ t → b ≠ a ∧ B.Meets g.Near a b) → t.size ≤ maxViewCount

/-- With room among the players there is room on the board. -/
theorem Placed.room (hg : g.Sound) (hN : 0 ≤ g.towerYN) (hs : s.Placed g B) (hroom : s.Roomy) :
    Room g B := by
  intro a t ht
  cases hB : B a with
  | none =>
    -- Nobody meets a player that is not registered.
    refine (ObjectSet.size_le_length (l := []) fun b hb ↦ ?_).trans (Nat.zero_le _)
    exact absurd (ht b hb).2 (Board.not_meets_of_none hB)
  | some rt =>
    obtain ⟨d, hd, hloc⟩ := hs.of_at (Board.at_of_eq hB)
    have hmem : a ∈ s.playerDataCache.keys := by
      rw [Std.ExtTreeMap.mem_keys, mem_iff_getPlayerMapData, hd]
      rfl
    refine (ObjectSet.size_le_length fun b hb ↦ ?_).trans
      (hroom a hmem ((hs.onMap_iff hg hN).2 ⟨_, Board.at_of_eq hB⟩) d hd)
    obtain ⟨hne, hmeets⟩ := ht b hb
    rw [List.mem_erase_of_ne hne, hs.mem_around hg hN, ← hloc]
    exact (Board.meets_iff_of_eq hB).1 hmeets

/-! ### One handler at a time -/

/-- The view lists are exact: everybody sees whom it meets. -/
structure Exact (g : TowerInfo) (s : LogicServer σ) (B : Board ObjectId (Int × Int)) : Prop
    extends s.Placed g B where
  exact : ∀ a b, b ∈ s.viewSet a ↔ b ≠ a ∧ B.Meets g.Near a b

/-- Exact views are mutual, because nearness is symmetric. -/
theorem Exact.isMutual (hs : s.Exact g B) : s.Mutual := by
  intro a b hb
  obtain ⟨hne, hmeets⟩ := (hs.exact a b).1 hb
  exact (hs.exact b a).2 ⟨hne.symm, hmeets.symm fun _ _ h ↦ h.symm⟩

/-- Exactness looks at the views, the players and the map alone. -/
theorem Joined.exact (h : Joined s s') (hgrid : g.HasGrid) (hs : s.Exact g B) : s'.Exact g B := by
  refine { h.placed hgrid hs.toPlaced with exact := fun a b ↦ ?_ }
  rw [h.viewSet]
  exact hs.exact a b

/-- A player whose list is full takes nobody in, so the loop changes nothing. -/
theorem sendAddViewPlayers_of_full (hfull : maxViewCount ≤ (s.viewSet me).size) (user : UserId)
    (mapData : PlayerMapData) (add : List ObjectId) :
    s.sendAddViewPlayers user me mapData add = s := by
  induction add with
  | nil => rfl
  | cons him rest ih =>
    show (s.addViewPlayer user me mapData him).sendAddViewPlayers user me mapData rest = s
    rw [addViewPlayer_of_not_canLink fun h ↦ absurd h.1.1 (by omega)]
    exact ih

/-- **Adding makes lists exact.** What is needed is that the lists miss nothing but pairs of `me`,
and that `me` is told about all that it misses, and about nobody out of sight. -/
theorem exact_sendAddViewPlayers (hmem : me ∈ s.playerDataCache) (hmut : s.Mutual)
    (hroom : Room g B) (hsub : ∀ a b, b ∈ s.viewSet a → b ≠ a ∧ B.Meets g.Near a b)
    (hothers : ∀ a b, a ≠ me → b ≠ me → b ≠ a → B.Meets g.Near a b → b ∈ s.viewSet a)
    {add : List ObjectId}
    (hadd : ∀ b, b ∈ add → b ≠ me ∧ b ∈ s.playerDataCache ∧ B.Meets g.Near me b)
    (hall : ∀ b, b ≠ me → B.Meets g.Near me b → b ∈ s.viewSet me ∨ b ∈ add)
    (user : UserId) (mapData : PlayerMapData) (a b : ObjectId) :
    b ∈ (s.sendAddViewPlayers user me mapData add).viewSet a ↔ b ≠ a ∧ B.Meets g.Near a b := by
  have hsymm : ∀ {a b}, B.Meets g.Near a b → B.Meets g.Near b a := fun h ↦ h.symm fun _ _ h ↦ h.symm
  rw [sendAddViewPlayers_exact hmem hmut (fun h ↦ (hsub me me h).1 rfl) hsub hroom user mapData add
    fun b hb ↦ ?_]
  · constructor
    · rintro (hb | ⟨rfl, hb⟩ | ⟨rfl, ha⟩)
      · exact hsub a b hb
      · exact ⟨(hadd b hb).1, (hadd b hb).2.2⟩
      · exact ⟨(hadd a ha).1.symm, hsymm (hadd a ha).2.2⟩
    · intro ⟨hne, hmeets⟩
      rcases eq_or_ne a me with rfl | ha
      · exact (hall b hne hmeets).imp_right fun h ↦ Or.inl ⟨rfl, h⟩
      · rcases eq_or_ne b me with rfl | hb
        · exact (hall a hne.symm (hsymm hmeets)).imp (hmut b a) fun h ↦ Or.inr ⟨rfl, h⟩
        · exact Or.inl (hothers a b ha hb hne hmeets)
  · obtain ⟨hne, hlive, hmeets⟩ := hadd b hb
    exact ⟨hne, hlive, ⟨hne, hmeets⟩, hne.symm, hsymm hmeets⟩

/-- **Getting ready** for the first time fills the player's list, and the others'. -/
theorem Exact.addUserToMap (hg : g.Sound) (hN : 0 ≤ g.towerYN) (hs : s.Exact g B)
    (hme : s.getPlayerMapData me = some d) (user : UserId)
    (hkeeps : B me = none ∨ maxViewCount ≤ (s.viewSet me).size)
    (hroom : ∀ s', s.addUserToMap 1 user me = some s' → s'.Roomy) :
    ∃ s' B', s.addUserToMap 1 user me = some s' ∧ s'.Exact g B' := by
  obtain ⟨toweraoi, told, heq, hplaced, htold⟩ := hs.toPlaced.addUserToMap hg hme user
  refine ⟨_, _, heq, { hplaced with exact := ?_ }⟩
  cases hB : B me with
  | some rt =>
    -- The player is registered already, so its list is full and everything stays as it is.
    have hfull := hkeeps.resolve_left (by rw [hB]; simp)
    have hreg := (hs.placed me d hme).resolve_left (by rw [hB]; simp)
    rw [sendAddViewPlayers_of_full (s := s.setTowerAoi toweraoi) hfull, Board.put_eq_self hreg]
    exact hs.exact
  | none =>
    have hmem : me ∈ (s.setTowerAoi toweraoi).playerDataCache :=
      mem_iff_getPlayerMapData.2 (Option.isSome_iff_exists.2 ⟨d, hme⟩)
    have hapart : ∀ {a b}, B.Meets g.Near a b → a ≠ me ∧ b ≠ me := by
      intro a b ⟨_, _, hata, hatb, _⟩
      exact ⟨fun h ↦ Board.not_at_of_none hB (h ▸ hata), fun h ↦ Board.not_at_of_none hB (h ▸ hatb)⟩
    refine exact_sendAddViewPlayers hmem hs.isMutual (hplaced.room hg hN (hroom _ heq))
      (fun a b hb ↦ ?_) (fun a b ha hb hne hmeets ↦ ?_) (fun b hb ↦ ?_) (fun b hne hmeets ↦ ?_)
      user d
    · obtain ⟨hne, hmeets⟩ := (hs.exact a b).1 hb
      exact ⟨hne, (Board.meets_put_of_ne (hapart hmeets).2 (hapart hmeets).1).2 hmeets⟩
    · exact (hs.exact a b).2 ⟨hne, (Board.meets_put_of_ne hb ha).1 hmeets⟩
    · obtain ⟨t, hat, hn⟩ := hs.watches_iff.1 ((htold b).1 hb)
      have hne : b ≠ me := fun h ↦ Board.not_at_of_none hB (h ▸ hat)
      obtain ⟨db, hdb, -⟩ := hs.of_at hat
      exact ⟨hne, mem_iff_getPlayerMapData.2 (Option.isSome_iff_exists.2 ⟨db, hdb⟩),
        (Board.meets_put_self hne).2 ⟨t, hat, hn⟩⟩
    · exact Or.inr ((htold b).2 (hs.watches_iff.2 ((Board.meets_put_self hne).1 hmeets)))

/-- **A move** keeps the lists exact when it says who comes into sight: when the player is
registered, or stays in its tower, or leaves nobody in sight. -/
theorem Exact.playerMove (hg : g.Sound) (hN : 0 ≤ g.towerYN) (hs : s.Exact g B)
    (hme : s.getPlayerMapData me = some d)
    (hwalk : s.map.isGridCanWalk 1 cmd.dstPoint = some true) (hp : g.InMap cmd.dstPoint)
    (user : UserId)
    (hkeeps : B me ≠ none ∨ g.towerOf d.location = g.towerOf cmd.dstPoint ∨
      ∀ b, B.Within g.Near (g.towerOf d.location) b → ¬ B.Within g.Near (g.towerOf cmd.dstPoint) b)
    (hroom : ∀ s', s.playerMove user me cmd = some s' → s'.Roomy) :
    ∃ s' B', s.playerMove user me cmd = some s' ∧ s'.Exact g B' := by
  obtain ⟨toweraoi, out, heq, hplaced, hout⟩ := hs.toPlaced.playerMove hg hme hwalk hp user
  obtain ⟨s₁, hmem, hframe, hdel, hview⟩ := moveViews_viewSet (s := s.setTowerAoi toweraoi)
    hs.defult hs.isMutual hme user cmd out cmd.dstPoint
  refine ⟨_, _, heq, { hplaced with exact := fun a b ↦ ?_ }⟩
  have hcap := hplaced.room hg hN (hroom _ heq)
  rw [hview]
  refine exact_sendAddViewPlayers hmem (mutual_of_unlinked hs.isMutual hdel) hcap
    (fun a b hb ↦ ?_) (fun a b ha hb hne hmeets ↦ ?_) (fun b hb ↦ ?_) (fun b hne hmeets ↦ ?_)
    user _ a b
  · obtain ⟨hne, -⟩ := (hs.exact a b).1 ((hdel a b).1 hb).1
    exact ⟨hne, hs.meets_of_move hg (fun a b hb ↦ ((hs.exact a b).1 hb).2) (hs.placed me d hme) hout
      (Or.inl ((hdel a b).1 hb))⟩
  · refine (hdel a b).2 ⟨(hs.exact a b).2 ⟨hne, ?_⟩, fun h ↦ ha h.1, fun h ↦ hb h.1⟩
    split_ifs at hmeets
    · exact hmeets
    · exact (Board.meets_put_of_ne hb ha).1 hmeets
  · rcases (hout.winsert b).1 (Std.ExtTreeSet.mem_toList.1 hb) with hb | ⟨hne, hnew, hold⟩
    · exact absurd hb Std.ExtTreeSet.not_mem_empty
    · obtain ⟨t, hat, hn⟩ := hs.watches_iff.1 hnew
      obtain ⟨db, hdb, -⟩ := hs.of_at hat
      have hmoved : g.towerOf d.location ≠ g.towerOf cmd.dstPoint := fun h ↦ hold (h ▸ hnew)
      refine ⟨hne, (hframe.mem_iff b).2 ?_, ?_⟩
      · exact mem_iff_getPlayerMapData.2 (Option.isSome_iff_exists.2 ⟨db, hdb⟩)
      · rw [if_neg hmoved]
        exact (Board.meets_put_self hne).2 ⟨t, hat, hn⟩
  · have hkept : B.Meets g.Near me b → B.Watches g.Near b (g.towerOf cmd.dstPoint) →
        b ∈ s₁.viewSet me := by
      intro hmeets hnew
      refine (hdel me b).2 ⟨(hs.exact me b).2 ⟨hne, hmeets⟩, fun h ↦ ?_, fun h ↦ hne h.1⟩
      rcases (hout.wremove b).1 h.2 with h | ⟨-, -, hnot⟩
      · exact Std.ExtTreeSet.not_mem_empty h
      · exact hnot hnew
    split_ifs at hmeets with hsame
    · refine Or.inl (hkept hmeets (hs.watches_iff.2 ?_))
      obtain ⟨t₀, t, hat, hatb, hn⟩ := hmeets
      exact ⟨t, hatb, hsame ▸ (hs.placed me d hme).at_imp hat ▸ hn⟩
    · have hwithin := (Board.meets_put_self hne).1 hmeets
      have hnew := hs.watches_iff.2 hwithin
      by_cases hold : B.Watches g.Near b (g.towerOf d.location)
      · -- Whoever was in sight already is in the list already, of a registered player.
        have hreg : B me ≠ none := by
          rcases hkeeps with h | h | h
          · exact h
          · exact absurd h hsame
          · exact absurd hwithin (h b (hs.watches_iff.1 hold))
        have hme' := (hs.placed me d hme).resolve_left hreg
        exact Or.inl (hkept ((Board.meets_iff_of_eq hme').2 (hs.watches_iff.1 hold)) hnew)
      · exact Or.inr (Std.ExtTreeSet.mem_toList.2
          ((hout.winsert b).2 (Or.inr ⟨hne, hnew, hold⟩)))

/-- **A logout keeps the lists exact**: the player leaves the board, and everybody who had it in
view is told. -/
theorem Exact.loginOut (nosql : NoSqlDBCache σ) (hg : g.Sound) (hs : s.Exact g B) (user : UserId) :
    ∃ s' B', s.loginOut nosql user = some s' ∧ s'.Exact g B' := by
  by_cases hmem : s.getObjectId user ∈ s.playerDataCache
  · obtain ⟨s', heq, hplaced, -, hview⟩ := hs.toPlaced.loginOut nosql hg hs.isMutual
      (fun a b hb ↦ ((hs.exact a b).1 hb).2) hmem
    refine ⟨s', _, heq, { hplaced with exact := fun a b ↦ ?_ }⟩
    rw [hview, hs.exact, Board.meets_remove]
    tauto
  · exact ⟨s, B, loginOut_of_notMem nosql hmem, hs⟩

/-! ### Runs -/

/-- The events that keep the view lists exact. A player that gets ready is not on the map yet, or
has no room left in its list; and a move that takes a player into another tower is made by one that
is on the map, or by one with nobody on the map in both windows. -/
def KeepsViews (s : LogicServer σ) : Event → Prop
  | .clientReady user =>
    ¬ s.OnMap (s.getObjectId user) ∨ maxViewCount ≤ (s.viewSet (s.getObjectId user)).size
  | .move user cmd =>
    ∀ d ∈ s.getPlayerMapData (s.getObjectId user), s.map.isGridCanWalk 1 cmd.dstPoint = some true →
      s.OnMap (s.getObjectId user) ∨
        s.map.toweraoi.towerOf d.location = s.map.toweraoi.towerOf cmd.dstPoint ∨
        s.Apart d.location cmd.dstPoint
  | _ => True

instance (s : LogicServer σ) : ∀ e : Event, Decidable (s.KeepsViews e)
  | .createRole .. => isTrue trivial
  | .enterGame .. => isTrue trivial
  | .clientReady user => inferInstanceAs (Decidable (¬ s.OnMap (s.getObjectId user) ∨
      maxViewCount ≤ (s.viewSet (s.getObjectId user)).size))
  | .move user cmd => inferInstanceAs (Decidable (∀ d ∈ s.getPlayerMapData (s.getObjectId user),
      s.map.isGridCanWalk 1 cmd.dstPoint = some true → s.OnMap (s.getObjectId user) ∨
        s.map.toweraoi.towerOf d.location = s.map.toweraoi.towerOf cmd.dstPoint ∨
        s.Apart d.location cmd.dstPoint))
  | .logout _ => isTrue trivial

/-- **A step is defined and keeps exactness**, as long as it keeps the views and there was room. By
induction this gives the runs. -/
theorem Exact.exists_step (hg : g.Sound) (hgrid : g.HasGrid) (hN : 0 ≤ g.towerYN)
    (hs : s.Exact g B) {event : Event} (hin : event.Inside g) (hkeeps : s.KeepsViews event)
    (hroom : Into (step nosql) Roomy s event) :
    ∃ s' B', s.step nosql event = some s' ∧ s'.Exact g B' := by
  cases event with
  | createRole user role =>
    exact ⟨_, B, rfl, (createPlayer_joined hs.defult user role).exact hgrid hs⟩
  | enterGame user enter =>
    exact ⟨_, B, rfl, (enterGame_joined hs.defult user enter).exact hgrid hs⟩
  | clientReady user =>
    show ∃ s' B', s.addUserToMap 1 user (s.getObjectId user) = some s' ∧ s'.Exact g B'
    cases hme : s.getPlayerMapData (s.getObjectId user) with
    | none => exact ⟨s, B, addUserToMap_of_none hme, hs⟩
    | some d =>
      refine hs.addUserToMap hg hN hme user (hkeeps.imp_left fun h ↦ ?_)
        fun s' heq ↦ (into_of_eq heq).1 hroom
      rwa [hs.onMap_iff hg hN, Board.exists_at_iff, not_not] at h
  | move user cmd =>
    show ∃ s' B', s.playerMove user (s.getObjectId user) cmd = some s' ∧ s'.Exact g B'
    rcases hs.playerMove_cases hin user (s.getObjectId user) with ⟨body, heq⟩ | ⟨d, hme, hwalk⟩
    · exact ⟨_, B, heq, (joined_sendMsgToPlayer hs.defult user .delobj body).exact hgrid hs⟩
    · refine hs.playerMove hg hN hme hwalk hin user ?_ fun s' heq ↦ (into_of_eq heq).1 hroom
      have hmove := hkeeps d hme hwalk
      rw [hs.onMap_iff hg hN, Board.exists_at_iff, hs.info] at hmove
      refine hmove.imp_right (Or.imp_right fun h b hb ↦ ?_)
      rw [← hs.mem_around hg hN] at hb ⊢
      exact h b hb
  | logout user => exact hs.loginOut nosql hg user

/-! ### The condition is sharp -/

/-- A player that is told about itself, and about nobody new, ends up in its own list. -/
theorem mem_viewSet_sendAddViewPlayers_self (hmem : me ∈ s.playerDataCache)
    (hroom : (s.viewSet me).size < maxViewCount) (hself : me ∉ s.viewSet me) {add : List ObjectId}
    (hme : me ∈ add) (hadd : ∀ b, b ∈ add → b ≠ me → b ∈ s.viewSet me) (user : UserId)
    (mapData : PlayerMapData) :
    me ∈ (s.sendAddViewPlayers user me mapData add).viewSet me := by
  induction add with
  | nil => simp at hme
  | cons him rest ih =>
    show me ∈ ((s.addViewPlayer user me mapData him).sendAddViewPlayers user me mapData
      rest).viewSet
      me
    rcases eq_or_ne him me with rfl | hne
    · obtain ⟨hframe, hv⟩ :=
        addViewPlayer_of_canLink hmem ⟨⟨hroom, hself⟩, hmem, hroom, hself⟩ user mapData
      refine (sendAddViewPlayers_spec ((hframe.mem_iff him).2 hmem) user mapData rest).mono _ _ ?_
      exact (hv him him).2 (Or.inr (Or.inl ⟨rfl, rfl⟩))
    · have hin := hadd him List.mem_cons_self hne
      rw [addViewPlayer_of_not_canLink fun h ↦ h.1.2 hin]
      exact ih ((List.mem_cons.1 hme).resolve_left hne.symm)
        fun b hb ↦ hadd b (List.mem_cons_of_mem _ hb)

/-- Somebody in the window of a player on the map has to be in its list. -/
theorem Placed.mem_viewSet_of_viewsExact (hg : g.Sound) (hN : 0 ≤ g.towerYN) (hs : s.Placed g B)
    (hexact : s.ViewsExact) (hB : B a = some (.watcher, t)) :
    b ∈ s.viewSet a ↔ b ≠ a ∧ B.Within g.Near t b := by
  obtain ⟨d, hd, rfl⟩ := hs.of_at (Board.at_of_eq hB)
  rw [hexact a d ((hs.onMap_iff hg hN).2 ⟨_, Board.at_of_eq hB⟩) hd, hs.mem_around hg hN]

/-- **Nothing else keeps the views**: an event after which exact lists are exact again is one that
keeps them. -/
theorem Exact.keepsViews_of_viewsExact (hg : g.Sound) (hN : 0 ≤ g.towerYN) (hs : s.Exact g B)
    {event : Event} (hin : event.Inside g) (heq : s.step nosql event = some s')
    (hexact : s'.ViewsExact) : s.KeepsViews event := by
  cases event with
  | createRole | enterGame | logout => trivial
  | clientReady user =>
    by_contra hnot
    obtain ⟨hon, hroom⟩ := not_or.1 hnot
    obtain ⟨t, r, hat⟩ := (hs.onMap_iff hg hN).1 (not_not.1 hon)
    obtain ⟨d, hme, rfl⟩ := hs.of_at ⟨r, hat⟩
    obtain rfl := hs.allWatch _ _ _ hat
    obtain ⟨toweraoi, told, hready, hplaced, htold⟩ := hs.toPlaced.addUserToMap hg hme user
    obtain rfl := Option.some.inj (hready.symm.trans heq)
    have hmem : s.getObjectId user ∈ (s.setTowerAoi toweraoi).playerDataCache :=
      mem_iff_getPlayerMapData.2 (Option.isSome_iff_exists.2 ⟨d, hme⟩)
    refine ((hplaced.mem_viewSet_of_viewsExact hg hN hexact Board.put_self).1
      (mem_viewSet_sendAddViewPlayers_self hmem (not_le.1 hroom) (fun h ↦ ?_) ?_ (fun b hb hne ↦ ?_)
        user d)).1 rfl
    · exact ((hs.exact _ _).1 h).1 rfl
    · exact (htold _).2 ((Board.watches_iff_of_eq hat).2 (hg.near_refl _))
    · exact (hs.exact _ b).2 ⟨hne, (Board.meets_iff_of_eq hat).2
        (hs.watches_iff.1 ((htold b).1 hb))⟩
  | move user cmd =>
    intro d hme hwalk
    by_contra hnot
    obtain ⟨hoff, hmoved, hnear⟩ : ¬ s.OnMap (s.getObjectId user) ∧
        s.map.toweraoi.towerOf d.location ≠ s.map.toweraoi.towerOf cmd.dstPoint ∧
        ¬ s.Apart d.location cmd.dstPoint := by tauto
    rw [hs.onMap_iff hg hN, Board.exists_at_iff, not_not] at hoff
    rw [hs.info] at hmoved
    obtain ⟨b, hold, hnew⟩ : ∃ b, B.Within g.Near (g.towerOf d.location) b ∧
        B.Within g.Near (g.towerOf cmd.dstPoint) b := by
      by_contra hnone
      refine hnear fun b hb hb' ↦ hnone ⟨b, ?_, ?_⟩
      · exact (hs.mem_around hg hN).1 hb
      · exact (hs.mem_around hg hN).1 hb'
    obtain ⟨toweraoi, out, hmove, hplaced, hout⟩ := hs.toPlaced.playerMove hg hme hwalk hin user
    obtain rfl := Option.some.inj (hmove.symm.trans heq)
    rw [if_neg hmoved] at hplaced
    have hne : b ≠ s.getObjectId user := by
      obtain ⟨_, hat, -⟩ := hnew
      exact fun h ↦ Board.not_at_of_none hoff (h ▸ hat)
    have hmiss := (hplaced.mem_viewSet_of_viewsExact hg hN hexact Board.put_self).2
      ⟨hne, (Board.within_put_of_ne hne).2 hnew⟩
    -- Nobody was in the player's list, and it is not told about somebody who stays in sight.
    obtain ⟨s₁, hmem, -, hdel, hview⟩ := moveViews_viewSet (s := s.setTowerAoi toweraoi)
      hs.defult hs.isMutual hme user cmd out cmd.dstPoint
    rw [hview] at hmiss
    rcases (sendAddViewPlayers_spec hmem user _ _).only _ _ hmiss with hb | ⟨-, hb, -⟩ | ⟨hb, -⟩
    · exact Board.not_meets_of_none hoff ((hs.exact _ b).1 ((hdel _ b).1 hb).1).2
    · rcases (hout.winsert b).1 (Std.ExtTreeSet.mem_toList.1 hb) with hb | ⟨-, -, hnot⟩
      · exact Std.ExtTreeSet.not_mem_empty hb
      · exact hnot (hs.watches_iff.2 hold)
    · exact hne hb

theorem start_exact {w h : Int} {m : GameMap} {cells : List MapGrid}
    (hm : GameMap.testTnit w h = some m) (hcells : (cells.length : Int) = w * h) (gCount : UInt64)
    (db : σ) : (start (m.withGrid cells) gCount db).Exact m.toweraoi.toTowerInfo Board.empty := by
  refine { start_placed hm hcells gCount db with exact := fun a b ↦ ?_ }
  rw [start_viewSet]
  exact iff_of_false Std.ExtTreeSet.not_mem_empty fun h ↦ Board.not_meets_of_none rfl h.2

theorem Exact.viewsExact (hg : g.Sound) (hN : 0 ≤ g.towerYN) (hs : s.Exact g B) : s.ViewsExact := by
  intro a d ha hd b
  obtain ⟨t, hat⟩ := (hs.onMap_iff hg hN).1 ha
  obtain ⟨d', hd', rfl⟩ := hs.of_at hat
  obtain rfl := Option.some.inj (hd.symm.trans hd')
  obtain ⟨r, hB⟩ := hat
  rw [hs.exact, hs.mem_around hg hN, Board.meets_iff_of_eq hB]

/-- **View exactness.** On a map of any size with a square tower grid, with any flags in its cells,
whatever any number of users send, as long as moves ask for cells inside the map and nobody ever has
more others in its window than the cap: the run is defined, and the view lists are exact throughout
it if and only if every event keeps the views. -/
theorem viewExactness {w h : Int} {m : GameMap} {cells : List MapGrid}
    (hm : GameMap.testTnit w h = some m) (hw : 1 < w) (hh : 1 < h)
    (hsq : m.toweraoi.towerXN = m.toweraoi.towerYN) (hcells : (cells.length : Int) = w * h)
    (nosql : NoSqlDBCache σ) (gCount : UInt64) (db : σ) (events : List Event)
    (hin : ∀ e ∈ events, e.Inside m.toweraoi.toTowerInfo)
    (hroom : Throughout (step nosql) Roomy (start (m.withGrid cells) gCount db) events) :
    (∃ s, run (step nosql) (start (m.withGrid cells) gCount db) events = some s) ∧
      (Throughout (step nosql) ViewsExact (start (m.withGrid cells) gCount db) events ↔
        Guarded (step nosql) KeepsViews (start (m.withGrid cells) gCount db) events) := by
  have hr := testTnit_regular hm
  have hg : m.toweraoi.Sound := ⟨hr, hsq⟩
  have hgrid := testTnit_hasGrid hm hw hh
  obtain ⟨-, -, -, hnew⟩ := testTnit_eq_some hm
  have hN := (TowerAoi.new_eq_some hnew).towerYN_nonneg
  have hstart := start_exact hm hcells gCount db
  have hdefined : ∀ (s : LogicServer σ) (e : Event), s.Located m.toweraoi.toTowerInfo →
      e.Inside m.toweraoi.toTowerInfo →
      ∃ s', s.step nosql e = some s' ∧ s'.Located m.toweraoi.toTowerInfo := by
    intro s e hs he
    refine hs.exists_step hr hgrid fun user cmd heq ↦ ?_
    subst heq
    exact hs.exists_playerMove hr he user (s.getObjectId user)
  constructor
  · obtain ⟨s, hrun, -⟩ := exists_run hdefined hstart.toLocated (guarded_of_forall hin)
    exact ⟨s, hrun⟩
  · have hiff : ∀ (s : LogicServer σ) (e : Event), (∃ B, s.Exact m.toweraoi.toTowerInfo B) →
        e.Inside m.toweraoi.toTowerInfo ∧ Into (step nosql) Roomy s e →
        (s.KeepsViews e ↔ Into (step nosql) ViewsExact s e) := by
      intro s e ⟨B, hs⟩ ⟨he, hr'⟩
      constructor
      · intro hk
        obtain ⟨s', B', heq, hs'⟩ := hs.exists_step hg hgrid hN he hk hr'
        exact (into_of_eq heq).2 (hs'.viewsExact hg hN)
      · intro hexact
        obtain ⟨s', heq, -⟩ := hdefined s e hs.toLocated he
        exact hs.keepsViews_of_viewsExact hg hN he heq ((into_of_eq heq).1 hexact)
    have hstep : ∀ (s : LogicServer σ) (e : Event) s', (∃ B, s.Exact m.toweraoi.toTowerInfo B) →
        e.Inside m.toweraoi.toTowerInfo ∧ Into (step nosql) Roomy s e → s.KeepsViews e →
        s.step nosql e = some s' → ∃ B, s'.Exact m.toweraoi.toTowerInfo B := by
      intro s e s' ⟨B, hs⟩ ⟨he, hr'⟩ hk heq
      obtain ⟨s'', B', heq', hs'⟩ := hs.exists_step hg hgrid hN he hk hr'
      obtain rfl := Option.some.inj (heq.symm.trans heq')
      exact ⟨B', hs'⟩
    rw [guarded_iff hiff hstep ⟨_, hstart⟩ ((guarded_of_forall hin).and hroom.2)]
    exact and_iff_right (hstart.viewsExact hg hN)

/-- Two users get ready, lose sight of each other, meet again, and one of them logs out. -/
def exactEvents : List Event :=
  [.createRole 7 ⟨"ann", 1, 1⟩, .createRole 8 ⟨"bob", 2, 1⟩, .move 7 { curx := 3, cury := 2 },
    .clientReady 7, .clientReady 8, .move 7 { curx := 29, cury := 29 },
    .move 8 { curx := 12, cury := 28 }, .move 7 { curx := 28, cury := 3 }, .logout 8]

/-- Two players who come near each other and part again. -/
theorem viewExactness_exactEvents : (∃ s, run (step .inMemory) sampleServer exactEvents = some s) ∧
    Throughout (step .inMemory) ViewsExact sampleServer exactEvents := by
  have hroom : Throughout (step .inMemory) Roomy sampleServer exactEvents := by decide +kernel
  obtain ⟨hrun, hiff⟩ := viewExactness testTnit_sampleMap (by decide) (by decide)
    (by decide +kernel) (by decide +kernel) .inMemory 0 ([], []) exactEvents (by decide +kernel)
    hroom
  exact ⟨hrun, hiff.2 (by decide +kernel)⟩

/-- A run within the map and with room for everybody, in which the view lists are not exact. -/
def Misses (events : List Event) : Prop :=
  (∀ e ∈ events, e.Inside sampleMap.toweraoi.toTowerInfo) ∧
    Throughout (step .inMemory) Roomy sampleServer events ∧
    ∃ s, run (step .inMemory) sampleServer events = some s ∧ ¬ s.ViewsExact

/-- A list is inexact where it disagrees with the window about one player. -/
theorem misses_of_disagrees {events : List Event} {a b : ObjectId}
    (hin : ∀ e ∈ events, e.Inside sampleMap.toweraoi.toTowerInfo)
    (hroom : Throughout (step .inMemory) Roomy sampleServer events)
    (h : ∃ s ∈ run (step .inMemory) sampleServer events, s.OnMap a ∧
      ∃ d ∈ s.getPlayerMapData a, ¬ (b ∈ s.viewSet a ↔ b ≠ a ∧ b ∈ s.around d.location)) :
    Misses events := by
  obtain ⟨s, hrun, ha, d, hd, hb⟩ := h
  exact ⟨hin, hroom, s, hrun, fun hexact ↦ hb (hexact a d ha hd b)⟩

/-- A player that gets ready twice has itself in view; one that moves before it is ready does not
have in view whom it was next to all along. -/
theorem viewExactness_needs_keepsViews :
    Misses [.createRole 7 ⟨"ann", 1, 1⟩, .clientReady 7, .clientReady 7] ∧
    Misses [.createRole 7 ⟨"ann", 1, 1⟩, .createRole 8 ⟨"bob", 2, 1⟩, .clientReady 7,
      .move 8 { curx := 6, cury := 1 }] :=
  ⟨misses_of_disagrees (a := 1) (b := 1) (by decide +kernel) (by decide +kernel)
    (by decide +kernel),
    misses_of_disagrees (a := 2) (b := 1) (by decide +kernel) (by decide +kernel)
      (by decide +kernel)⟩

end LogicServer

end QCLib
