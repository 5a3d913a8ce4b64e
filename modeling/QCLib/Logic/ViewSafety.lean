import QCLib.Foundations.StepRun
import QCLib.Logic.Placement

/-!
# View lists are safe

Whatever the users send and in whatever order, the view lists stay mutual and capped, and list only
cached players that are registered near each other (`Safe`). This needs no exactness: a list may
miss neighbours, and may even name its owner, but it never names anybody out of sight.

Every handler is followed through the same three facts: where the board puts the player afterwards,
which pairs are taken out of the lists, and which may have been put in.

`Safe` is weaker than exactness and holds without any condition on the messages. Its parts are that
the lists are mutual, that none is longer than the cap, and that whoever is in a list is cached and
near. A logout takes the player out of every list (`Gone`), and this is where mutuality is needed:
only the lists of those who are in its own list are looked at.
-/

open CSemantics Interest StepRun

namespace QCLib

/-- A move asks for a cell inside the map. -/
def Event.Inside (g : TowerInfo) : Event → Prop
  | .move _ cmd => g.InMap cmd.dstPoint
  | _ => True

instance (g : TowerInfo) : ∀ e : Event, Decidable (e.Inside g)
  | .createRole .. => isTrue trivial
  | .enterGame .. => isTrue trivial
  | .clientReady _ => isTrue trivial
  | .move _ cmd => inferInstanceAs (Decidable (g.InMap cmd.dstPoint))
  | .logout _ => isTrue trivial

namespace LogicServer

variable {σ : Type} {nosql : NoSqlDBCache σ} {g : TowerInfo} {s s' s₁ : LogicServer σ}
  {id me a b : ObjectId} {user : UserId} {d : PlayerMapData} {cmd : ReqMove}
  {B B' : Board ObjectId (Int × Int)} {t : Int × Int}

/-- The view lists name only players that are registered near their owner, are mutual, and respect
the cap. -/
structure Safe (g : TowerInfo) (s : LogicServer σ) (B : Board ObjectId (Int × Int)) : Prop
    extends s.Placed g B where
  isMutual : s.Mutual
  meets : ∀ a b, b ∈ s.viewSet a → B.Meets g.Near a b
  capped : ∀ a, (s.viewSet a).size ≤ maxViewCount

/-- Who is told, in the terms of the board: the registered players near the tower. -/
theorem Placed.watches_iff (hs : s.Placed g B) :
    B.Watches g.Near a t ↔ B.Within g.Near t a := by
  rw [hs.allWatch.watches_iff]
  constructor
  · intro ⟨s, hat, hn⟩
    exact ⟨s, hat, hn.symm⟩
  · intro ⟨s, hat, hn⟩
    exact ⟨s, hat, hn.symm⟩

/-! ### One handler at a time -/

/-- Safety looks at the views, the players and the map alone. -/
theorem Joined.safe (h : Joined s s') (hgrid : g.HasGrid) (hs : s.Safe g B) : s'.Safe g B := by
  refine { h.placed hgrid hs.toPlaced with isMutual := ?_, meets := ?_, capped := ?_ }
  · intro a b hb
    rw [h.viewSet] at hb ⊢
    exact hs.isMutual a b hb
  · intro a b hb
    rw [h.viewSet] at hb
    exact hs.meets a b hb
  · intro a
    rw [h.viewSet]
    exact hs.capped a

/-- Meeting survives putting `me` at a tower it is near to: `me`'s pairs are those that are near the
tower, and the others are as before. -/
theorem meets_put (hrefl : g.Near t t) (hother : a ≠ me → b ≠ me → B.Meets g.Near a b)
    (hleft : a = me → b ≠ me → B.Within g.Near t b)
    (hright : b = me → a ≠ me → B.Within g.Near t a) :
    (B.put me .watcher t).Meets g.Near a b := by
  by_cases ha : a = me
  · subst ha
    by_cases hb : b = a
    · subst hb
      exact (Board.meets_iff_of_eq Board.put_self).2 ⟨t, Board.at_of_eq Board.put_self, hrefl⟩
    · exact (Board.meets_put_self hb).2 (hleft rfl hb)
  · by_cases hb : b = me
    · subst hb
      exact ((Board.meets_put_self ha).2 (hright rfl ha)).symm fun _ _ h ↦ h.symm
    · exact (Board.meets_put_of_ne hb ha).2 (hother ha hb)

/-- **Getting ready** keeps the lists safe, also when the player was ready before. -/
theorem Safe.addUserToMap (hg : g.Sound) (hs : s.Safe g B) (hme : s.getPlayerMapData me = some d)
    (user : UserId) : ∃ s', s.addUserToMap 1 user me = some s' ∧
      s'.Safe g (B.put me .watcher (g.towerOf d.location)) := by
  obtain ⟨toweraoi, told, heq, hplaced, htold⟩ := hs.toPlaced.addUserToMap hg hme user
  have hmem : me ∈ (s.setTowerAoi toweraoi).playerDataCache :=
    mem_iff_getPlayerMapData.2 (Option.isSome_iff_exists.2 ⟨d, hme⟩)
  have hadds := sendAddViewPlayers_spec hmem user d told
  have hfree := hs.placed me d hme
  refine ⟨_, heq, { hplaced with
    isMutual := hadds.keepsMutual hs.isMutual, meets := fun a b hb ↦ ?_,
    capped := hadds.capped hs.capped }⟩
  -- If `me` was registered already, it was registered at this very tower.
  have hold : ∀ {i}, B.Meets g.Near me i → B.Within g.Near (g.towerOf d.location) i := by
    intro i ⟨s, t, hat, hi, hn⟩
    exact ⟨t, hi, hfree.at_imp hat ▸ hn⟩
  have hwithin : ∀ {i}, i ∈ told → B.Within g.Near (g.towerOf d.location) i :=
    fun hi ↦ hs.watches_iff.1 ((htold _).1 hi)
  refine meets_put (hg.near_refl _) (fun ha hb' ↦ ?_) (fun ha hb' ↦ ?_) fun hb' ha ↦ ?_
  · rcases hadds.only a b hb with hb | ⟨hc, -⟩ | ⟨hc, -⟩
    · exact hs.meets a b hb
    · exact absurd hc ha
    · exact absurd hc hb'
  · subst ha
    rcases hadds.only a b hb with hb | ⟨-, hb, -⟩ | ⟨hc, -⟩
    · exact hold (hs.meets a b hb)
    · exact hwithin hb
    · exact absurd hc hb'
  · subst hb'
    rcases hadds.only a b hb with hb | ⟨hc, -⟩ | ⟨-, ha, -⟩
    · exact hold ((hs.meets a b hb).symm fun _ _ h ↦ h.symm)
    · exact absurd hc ha
    · exact hwithin ha

/-- The pairs that a move leaves in the lists meet on the board after it. -/
theorem Placed.meets_of_move {t₀ t₁ : Int × Int} {out : MoveSets} (hg : g.Sound)
    (hs : s.Placed g B) (hmeets : ∀ a b, b ∈ s.viewSet a → B.Meets g.Near a b)
    (hfree : TowerAoi.Free B me .watcher t₀)
    (hout : TowerAoi.MoveSets.Reports g B me t₀ t₁ {} out)
    (h : (b ∈ s.viewSet a ∧ ¬ (a = me ∧ b ∈ out.wremove) ∧ ¬ (b = me ∧ a ∈ out.wremove)) ∨
      (a = me ∧ b ∈ out.winsert) ∨ (b = me ∧ a ∈ out.winsert)) :
    (if t₀ = t₁ then B else B.put me .watcher t₁).Meets g.Near a b := by
  have hadded : ∀ {i}, i ∈ out.winsert → i ≠ me ∧ t₀ ≠ t₁ ∧ B.Within g.Near t₁ i := by
    intro i hi
    rcases (hout.winsert i).1 hi with hi | ⟨hne, hnew, hold⟩
    · exact absurd hi Std.ExtTreeSet.not_mem_empty
    · exact ⟨hne, fun heq ↦ hold (heq ▸ hnew), hs.watches_iff.1 hnew⟩
  by_cases hsame : t₀ = t₁
  · rw [if_pos hsame]
    rcases h with ⟨hb, -⟩ | ⟨-, hb⟩ | ⟨-, ha⟩
    · exact hmeets a b hb
    · exact absurd hsame (hadded hb).2.1
    · exact absurd hsame (hadded ha).2.1
  · rw [if_neg hsame]
    -- A pair of the mover that is kept was in both windows.
    have hkept : ∀ {i}, i ≠ me → B.Meets g.Near me i → i ∉ out.wremove → B.Within g.Near t₁ i := by
      intro i hi ⟨s, t, hat, hit, hn⟩ hnot
      have hold := hs.watches_iff.2 ⟨t, hit, hfree.at_imp hat ▸ hn⟩
      refine hs.watches_iff.1 ?_
      by_contra hnew
      exact hnot ((hout.wremove i).2 (Or.inr ⟨hi, hold, hnew⟩))
    refine meets_put (hg.near_refl _) (fun ha hb' ↦ ?_) (fun ha hb' ↦ ?_) fun hb' ha ↦ ?_
    · rcases h with ⟨hb, -⟩ | ⟨hc, -⟩ | ⟨hc, -⟩
      · exact hmeets a b hb
      · exact absurd hc ha
      · exact absurd hc hb'
    · rcases h with ⟨hb, hnot, -⟩ | ⟨-, hb⟩ | ⟨hc, -⟩
      · exact hkept hb' (ha ▸ hmeets a b hb) fun hr ↦ hnot ⟨ha, hr⟩
      · exact (hadded hb).2.2
      · exact absurd hc hb'
    · rcases h with ⟨hb, -, hnot⟩ | ⟨hc, -⟩ | ⟨-, ha⟩
      · exact hkept ha (hb' ▸ (hmeets a b hb).symm fun _ _ h ↦ h.symm) fun hr ↦ hnot ⟨hb', hr⟩
      · exact absurd hc ha
      · exact (hadded ha).2.2

/-- A move to a walkable cell keeps the lists safe. -/
theorem Safe.playerMove_of_walks (hg : g.Sound) (hs : s.Safe g B) (hp : g.InMap cmd.dstPoint)
    (hme : s.getPlayerMapData me = some d)
    (hwalk : s.map.isGridCanWalk 1 cmd.dstPoint = some true) (user : UserId) :
    ∃ s', s.playerMove user me cmd = some s' ∧
      s'.Safe g (if g.towerOf d.location = g.towerOf cmd.dstPoint then B
        else B.put me .watcher (g.towerOf cmd.dstPoint)) := by
  obtain ⟨toweraoi, out, heq, hplaced, hout⟩ := hs.toPlaced.playerMove hg hme hwalk hp user
  obtain ⟨s₁, hmem, -, hdel, hview⟩ := moveViews_viewSet (s := s.setTowerAoi toweraoi)
    hs.defult hs.isMutual hme user cmd out cmd.dstPoint
  have hadds := sendAddViewPlayers_spec hmem user (movedData d cmd.dstPoint) out.winsert.toList
  have hmutual := hadds.keepsMutual (mutual_of_unlinked hs.isMutual hdel)
  refine ⟨_, heq, { hplaced with
    isMutual := fun a b hb ↦ ?_, meets := fun a b hb ↦ ?_, capped := fun a ↦ ?_ }⟩
  · rw [hview] at hb ⊢
    exact hmutual a b hb
  · rw [hview] at hb
    refine hs.toPlaced.meets_of_move hg hs.meets (hs.placed me d hme) hout ?_
    rcases hadds.only a b hb with hb | ⟨ha, hb, -⟩ | ⟨hb, ha, -⟩
    · exact Or.inl ((hdel a b).1 hb)
    · exact Or.inr (Or.inl ⟨ha, Std.ExtTreeSet.mem_toList.1 hb⟩)
    · exact Or.inr (Or.inr ⟨hb, Std.ExtTreeSet.mem_toList.1 ha⟩)
  · rw [hview]
    refine hadds.capped (fun c ↦ ?_) a
    exact (ObjectSet.size_le_of_subset fun i hi ↦ ((hdel c i).1 hi).1).trans (hs.capped c)

/-- **A move** inside the map keeps the lists safe, whether the player was ready or not. -/
theorem Safe.playerMove (hg : g.Sound) (hgrid : g.HasGrid) (hs : s.Safe g B)
    (hp : g.InMap cmd.dstPoint) (user : UserId) (me : ObjectId) :
    ∃ s' B', s.playerMove user me cmd = some s' ∧ s'.Safe g B' := by
  rcases hs.playerMove_cases hp user me with ⟨body, heq⟩ | ⟨d, hme, hwalk⟩
  · exact ⟨_, B, heq, (joined_sendMsgToPlayer hs.defult user .delobj body).safe hgrid hs⟩
  · obtain ⟨s', heq, hs'⟩ := hs.playerMove_of_walks hg hp hme hwalk user
    exact ⟨s', _, heq, hs'⟩

/-- A logout takes the player off the board and out of all lists, and changes nothing else there. -/
theorem Placed.loginOut (nosql : NoSqlDBCache σ) (hg : g.Sound) (hs : s.Placed g B)
    (hmut : s.Mutual) (hmeets : ∀ a b, b ∈ s.viewSet a → B.Meets g.Near a b)
    (hmem : s.getObjectId user ∈ s.playerDataCache) :
    ∃ s', s.loginOut nosql user = some s' ∧ s'.Placed g (B.remove (s.getObjectId user)) ∧
      s'.getPlayerMapData (s.getObjectId user) = none ∧
      ∀ a b, b ∈ s'.viewSet a ↔
        a ≠ s.getObjectId user ∧ b ≠ s.getObjectId user ∧ b ∈ s.viewSet a := by
  simp only [LogicServer.loginOut, havePlayerData, decide_eq_true_eq, if_pos hmem]
  revert hmem
  generalize s.getObjectId user = me
  intro hmem
  obtain ⟨d, hme⟩ := Option.isSome_iff_exists.1 (mem_iff_getPlayerMapData.1 hmem)
  obtain ⟨toweraoi, told, heq, hplaced, htold⟩ := hs.delUserFromMap hg nosql hme user
  have hframe := frame_sendDelViewPlayers (s := s.setTowerAoi toweraoi) hs.defult user me told
  have hdel := mem_viewSet_sendDelViewPlayers (s := s.setTowerAoi toweraoi) hs.defult hmut
    user me told
  obtain ⟨-, -, hview, hdata⟩ := delPlayerData_spec nosql (hframe.defult.trans hs.defult)
    ((hframe.mem_iff me).2 hmem)
  refine ⟨_, by rw [heq]; rfl, hplaced, by rw [hdata, if_pos rfl], fun a b ↦ ?_⟩
  rw [hview]
  split_ifs with ha
  · exact iff_of_false Std.ExtTreeSet.not_mem_empty fun h ↦ h.1 ha
  · rw [hdel]
    constructor
    · rintro ⟨hb, -, hnot⟩
      refine ⟨ha, fun hbme ↦ hnot ⟨hbme, ?_⟩, hb⟩
      -- Whoever has the player in view is near its tower, so it is told.
      obtain ⟨s₀, t, hat, hmeat, hn⟩ := hmeets a b hb
      refine (htold a).2 ⟨ha, hs.watches_iff.2 ⟨s₀, hat, ?_⟩⟩
      exact ((hs.placed me d hme).at_imp (hbme ▸ hmeat) ▸ hn).symm
    · rintro ⟨-, hb, hin⟩
      exact ⟨hin, fun h ↦ ha h.1, fun h ↦ hb h.1⟩

/-- A logout of a cached player keeps the lists safe. -/
theorem Safe.loginOut_of_mem (nosql : NoSqlDBCache σ) (hg : g.Sound) (hs : s.Safe g B)
    (hmem : s.getObjectId user ∈ s.playerDataCache) :
    ∃ s', s.loginOut nosql user = some s' ∧ s'.Safe g (B.remove (s.getObjectId user)) ∧
      s'.getPlayerMapData (s.getObjectId user) = none := by
  obtain ⟨s', heq, hplaced, hnone, hview⟩ :=
    hs.toPlaced.loginOut nosql hg hs.isMutual hs.meets hmem
  refine ⟨s', heq, { hplaced with
    isMutual := fun a b hb ↦ ?_, meets := fun a b hb ↦ ?_, capped := fun a ↦ ?_ }, hnone⟩
  · obtain ⟨ha, hbme, hb⟩ := (hview a b).1 hb
    exact (hview b a).2 ⟨hbme, ha, hs.isMutual a b hb⟩
  · obtain ⟨ha, hbme, hb⟩ := (hview a b).1 hb
    exact Board.meets_remove.2 ⟨ha, hbme, hs.meets a b hb⟩
  · exact (ObjectSet.size_le_of_subset fun i hi ↦ ((hview a i).1 hi).2.2).trans (hs.capped a)

/-- **A logout** keeps the lists safe, and leaves nothing of the player. -/
theorem Safe.loginOut (nosql : NoSqlDBCache σ) (hg : g.Sound) (hs : s.Safe g B) (user : UserId) :
    ∃ s' B', s.loginOut nosql user = some s' ∧ s'.Safe g B' ∧
      s'.getPlayerMapData (s.getObjectId user) = none := by
  by_cases hmem : s.getObjectId user ∈ s.playerDataCache
  · obtain ⟨s', heq, hs', hnone⟩ := hs.loginOut_of_mem nosql hg hmem
    exact ⟨s', _, heq, hs', hnone⟩
  · refine ⟨s, B, loginOut_of_notMem nosql hmem, hs, ?_⟩
    rwa [mem_iff_getPlayerMapData, Option.not_isSome_iff_eq_none] at hmem

/-- **One step of the server is defined and safe.** The cases are the handlers, each with a lemma of
its own above. -/
theorem Safe.exists_step (hg : g.Sound) (hgrid : g.HasGrid) (hs : s.Safe g B) {event : Event}
    (hin : event.Inside g) : ∃ s' B', s.step nosql event = some s' ∧ s'.Safe g B' := by
  cases event with
  | createRole user role =>
    exact ⟨_, B, rfl, (createPlayer_joined hs.defult user role).safe hgrid hs⟩
  | enterGame user enter => exact ⟨_, B, rfl, (enterGame_joined hs.defult user enter).safe hgrid hs⟩
  | clientReady user =>
    show ∃ s' B', s.addUserToMap 1 user (s.getObjectId user) = some s' ∧ s'.Safe g B'
    cases hme : s.getPlayerMapData (s.getObjectId user) with
    | none => exact ⟨s, B, addUserToMap_of_none hme, hs⟩
    | some d =>
      obtain ⟨s', heq, hs'⟩ := hs.addUserToMap hg hme user
      exact ⟨s', _, heq, hs'⟩
  | move user cmd => exact hs.playerMove hg hgrid hin user (s.getObjectId user)
  | logout user =>
    obtain ⟨s', B', heq, hs', -⟩ := hs.loginOut nosql hg user
    exact ⟨s', B', heq, hs'⟩

/-! ### Runs -/

/-- What the view lists promise, in the terms of the server: they are mutual; they list players that
are in the cache and registered at a tower in the window of their owner's; and they are capped. -/
structure ViewsSafe (s : LogicServer σ) : Prop where
  isMutual : ∀ a b, b ∈ s.viewSet a ↔ a ∈ s.viewSet b
  listed : ∀ a b, b ∈ s.viewSet a → ∃ da db tower, s.getPlayerMapData a = some da ∧
    s.getPlayerMapData b = some db ∧
    s.map.toweraoi.Near (s.map.toweraoi.towerOf da.location) (s.map.toweraoi.towerOf db.location) ∧
    s.map.toweraoi.towerAt (s.map.toweraoi.towerOf db.location) = some tower ∧
    b ∈ tower.objs ∧ b ∈ tower.watchers
  capped : ∀ a, (s.viewSet a).size ≤ maxViewCount

/-- No view list and no tower mentions the player. -/
structure Gone (s : LogicServer σ) (id : ObjectId) : Prop where
  views : ∀ a, id ∉ s.viewSet a
  towers : ∀ tower ∈ s.map.toweraoi.towers, id ∉ tower.objs ∧ id ∉ tower.watchers

theorem Safe.viewsSafe (hg : g.Sound) (hs : s.Safe g B) : s.ViewsSafe := by
  refine ⟨fun a b ↦ ⟨hs.isMutual a b, hs.isMutual b a⟩, fun a b hb ↦ ?_, hs.capped⟩
  obtain ⟨sa, sb, hata, hatb, hn⟩ := hs.meets a b hb
  obtain ⟨da, hda, rfl⟩ := hs.of_at hata
  obtain ⟨db, hdb, rfl⟩ := hs.of_at hatb
  have hinfo := hs.info
  subst hinfo
  have hgrid := TowerInfo.inGrid_towerOf hg.toRegular (hs.inMap b db hdb)
  refine ⟨da, db, _, hda, hdb, hn, TowerAoi.towerAt_eq hs.indexed hgrid, ?_, ?_⟩
  · exact (hs.represents.mem_objs _ hgrid b).2 hatb
  · exact (hs.represents.mem_watchers _ hgrid b).2
      (hs.watches_iff.2 ⟨_, hatb, hg.near_refl _⟩)

theorem Safe.gone (hg : g.Sound) (hN : 0 ≤ g.towerYN) (hs : s.Safe g B)
    (hid : s.getPlayerMapData id = none) : s.Gone id := by
  refine ⟨fun a hin ↦ ?_, fun tower hmem ↦ ?_⟩
  · obtain ⟨-, t, -, hat, -⟩ := hs.meets a id hin
    exact Board.not_at_of_none (hs.absent id hid) hat
  · exact hs.represents.notMem_of_none hg.square hN (hs.absent id hid) hmem

theorem start_safe {w h : Int} {m : GameMap} {cells : List MapGrid}
    (hm : GameMap.testTnit w h = some m) (hcells : (cells.length : Int) = w * h) (gCount : UInt64)
    (db : σ) : (start (m.withGrid cells) gCount db).Safe m.toweraoi.toTowerInfo Board.empty := by
  have hview : ∀ a b, b ∉ (start (m.withGrid cells) gCount db).viewSet a := by
    intro a b hb
    rw [start_viewSet] at hb
    exact Std.ExtTreeSet.not_mem_empty hb
  refine { start_placed hm hcells gCount db with
    isMutual := fun a b hb ↦ absurd hb (hview a b)
    meets := fun a b hb ↦ absurd hb (hview a b)
    capped := fun a ↦ ?_ }
  rw [start_viewSet]
  exact Nat.zero_le _

/-- **View safety.** On a map of any size with a square tower grid, with any flags in its cells, and
whatever any number of users send, as long as moves ask for cells inside the map: the run is
defined, its last state has safe view lists, and a user that logs out there is gone. -/
theorem viewSafety {w h : Int} {m : GameMap} {cells : List MapGrid}
    (hm : GameMap.testTnit w h = some m) (hw : 1 < w) (hh : 1 < h)
    (hsq : m.toweraoi.towerXN = m.toweraoi.towerYN) (hcells : (cells.length : Int) = w * h)
    (nosql : NoSqlDBCache σ) (gCount : UInt64) (db : σ) (events : List Event)
    (hin : ∀ e ∈ events, e.Inside m.toweraoi.toTowerInfo) :
    ∃ s, run (step nosql) (start (m.withGrid cells) gCount db) events = some s ∧ s.ViewsSafe ∧
      ∀ user, ∃ s', s.step nosql (.logout user) = some s' ∧ s'.Gone (s.getObjectId user) := by
  have hg : m.toweraoi.Sound := ⟨testTnit_regular hm, hsq⟩
  obtain ⟨-, -, -, hnew⟩ := testTnit_eq_some hm
  have hstep : ∀ (s : LogicServer σ) (e : Event), (∃ B, s.Safe m.toweraoi.toTowerInfo B) →
      e.Inside m.toweraoi.toTowerInfo →
      ∃ s', s.step nosql e = some s' ∧ ∃ B, s'.Safe m.toweraoi.toTowerInfo B := by
    intro s e ⟨B, hs⟩ he
    obtain ⟨s', B', heq, hs'⟩ := hs.exists_step hg (testTnit_hasGrid hm hw hh) he
    exact ⟨s', heq, B', hs'⟩
  obtain ⟨s, hrun, B, hs⟩ := exists_run hstep ⟨_, start_safe hm hcells gCount db⟩
    (guarded_of_forall hin)
  refine ⟨s, hrun, hs.viewsSafe hg, fun user ↦ ?_⟩
  obtain ⟨s', B', heq, hs', hnone⟩ := hs.loginOut nosql hg user
  exact ⟨s', heq, hs'.gone hg (TowerAoi.new_eq_some hnew).towerYN_nonneg hnone⟩

/-- Two users get roles, and both get ready, one of them after a move and one of them twice; they
walk out of each other's sight and back, and one of them logs out. -/
def sampleEvents : List Event :=
  [.createRole 7 ⟨"ann", 1, 1⟩, .createRole 8 ⟨"bob", 2, 1⟩, .move 7 { curx := 9, cury := 3 },
    .clientReady 7, .clientReady 8, .clientReady 8, .move 7 { curx := 29, cury := 29 },
    .move 8 { curx := 12, cury := 28 }, .enterGame 9 ⟨1⟩, .logout 8,
    .move 7 { curx := 0, cury := 0 }]

/-- A run with two players, in which any of them may log out. -/
theorem viewSafety_sampleEvents : ∃ s, run (step .inMemory) sampleServer sampleEvents = some s ∧
    s.ViewsSafe ∧ ∀ user, ∃ s', s.step .inMemory (.logout user) = some s' ∧
      s'.Gone (s.getObjectId user) :=
  viewSafety testTnit_sampleMap (by decide) (by decide) (by decide +kernel) (by decide +kernel)
    .inMemory 0 ([], []) sampleEvents (by decide +kernel)

end LogicServer

end QCLib
