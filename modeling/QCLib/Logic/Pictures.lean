import QCLib.Foundations.Histories
import QCLib.Logic.EnteredRole
import QCLib.Logic.ViewSafety

/-!
# What the clients show

A client shows the players that it has been told to add and has not been told to delete. The map
module tells it whenever it writes a view list, so what the client shows should be the list of its
player.

Two things come in between. A move that fails is answered with an `AckMove` under `DELOBJ_CMD`, and
the client deletes whatever it takes for the `tmpId` of that. And a user without a player acts as
the player `0`, if there is one, whose own user is not told.

`Mirrored` is the property: for every user with a player in the game, the picture that comes of the
messages to that user is the view of the player. While a handler runs it is true of a part of the
views only; `Telling` says of which, and each routine of the map module extends it.

The condition, `Heeds`, is on the step and the state before it: a user without a player does not act
as the player `0`, and a move is not refused while the player has in view what its client takes for
the `tmpId` of the answer.
-/

open CSemantics Histories Interest StepRun

namespace QCLib

namespace LogicServer

variable {σ : Type} {reads : AckMove → ObjectId} {loadedAt : ObjectId → ℕ} {s s₀ s' : LogicServer σ}
  {id me him : ObjectId} {user : UserId} {cmd : WholeCmd} {body : Body} {f : ObjectSet → ObjectSet}

/-- What a client that shows `seen` shows after a message. A `DELOBJ_CMD` is read as a
`MapDelObject`; `reads` is what its `tmpId` is then if an `AckMove` has been sent. -/
def apply (reads : AckMove → ObjectId) (seen : ObjectSet) (p : Packet) : ObjectSet :=
  if p.cmd = .addobj then
    match p.body with
    | .mapAddObject body => seen.insert body.tmpid
    | _ => seen
  else if p.cmd = .delobj then
    match p.body with
    | .mapDelObject body => seen.erase body.tmpid
    | .ackMove body => seen.erase (reads body)
    | _ => seen
  else seen

/-- What the client of a user shows after some messages. -/
def picture (reads : AckMove → ObjectId) (user : UserId) (messages : List Packet) : ObjectSet :=
  (messages.filter (·.user = user)).foldl (apply reads) ∅

/-- One packet more: it changes the picture of the user that it is for, and nobody else's. -/
theorem picture_concat (reads : AckMove → ObjectId) (user : UserId) (messages : List Packet)
    (p : Packet) : picture reads user (messages ++ [p]) =
      if p.user = user then apply reads (picture reads user messages) p
      else picture reads user messages := by
  rw [picture, List.filter_append, List.foldl_append, List.filter_singleton]
  by_cases h : p.user = user
  · rw [if_pos h, decide_eq_true h]
    rfl
  · rw [if_neg h, decide_eq_false h]
    rfl

/-- A packet that is neither an appearance nor a disappearance leaves a picture as it is. -/
theorem apply_of_ne (hadd : cmd ≠ .addobj) (hdel : cmd ≠ .delobj) (seen : ObjectSet) :
    apply reads seen ⟨user, cmd, body⟩ = seen := by
  rw [apply, if_neg hadd, if_neg hdel]

theorem apply_addObject (seen : ObjectSet) (mapData : PlayerMapData) :
    apply reads seen ⟨user, .addobj, addObject id mapData⟩ = seen.insert id := if_pos rfl

private theorem delobj_ne_addobj : WholeCmd.delobj ≠ .addobj := by decide

theorem apply_mapDelObject (seen : ObjectSet) :
    apply reads seen ⟨user, .delobj, .mapDelObject ⟨id⟩⟩ = seen.erase id := by
  rw [apply, if_neg delobj_ne_addobj, if_pos rfl]

/-- The answer to a failed move goes by the command of a disappearance, so a client that reads it as
one takes out what it reads there. -/
theorem apply_ackMove (seen : ObjectSet) (ack : AckMove) :
    apply reads seen ⟨user, .delobj, .ackMove ack⟩ = seen.erase (reads ack) := by
  rw [apply, if_neg delobj_ne_addobj, if_pos rfl]

/-! ### While a message is handled -/

/-- A `MOVE_ACK` goes to the user of the player it is about, or to one whose client shows the player
after what has been sent. -/
def Acknowledges (reads : AckMove → ObjectId) (loadedAt : ObjectId → ℕ) (s : LogicServer σ)
    (sent : List Packet) (p : Packet) : Prop :=
  ∃ ack, p.body = .ackMove ack ∧ (s.owners ack.tmpid = some p.user ∨
    ∃ id, s.roles p.user = some id ∧ ack.tmpid ∈ picture reads p.user (sent.drop (loadedAt id)))

/-- **What has been told so far**, since `s₀`: for every user with a player, its client shows the
view list of the player; and every `MOVE_ACK` has gone where it should. -/
structure Telling (reads : AckMove → ObjectId) (loadedAt : ObjectId → ℕ) (s₀ s : LogicServer σ) :
    Prop where
  same : SamePlayers s₀ s
  loaded : ∀ user id, s₀.roles user = some id → loadedAt id ≤ s.sent.length
  shown : ∀ user id, s₀.roles user = some id →
    picture reads user (s.sent.drop (loadedAt id)) = s.viewSet id
  acks : Each (fun pre p ↦ s₀.sent.length ≤ pre.length → p.cmd = .moveAck →
    s₀.Acknowledges reads loadedAt pre p) s.sent

theorem getUserId_eq (h : s.owners id = some user) : s.getUserId id = user := by
  rw [owners, Option.map_eq_some_iff] at h
  obtain ⟨x, hx, rfl⟩ := h
  obtain ⟨p, hp, rfl⟩ := Option.map_eq_some_iff.1 hx
  rw [getUserId, hp]
  rfl

theorem Routed.mem (h : s.Routed) (hrole : s.roles user = some id) : id ∈ s.playerDataCache :=
  owners_ne_none_iff.1 (by rw [h user id hrole]; exact Option.some_ne_none user)

/-- A logout takes out the entry that leads to the player. -/
theorem Routed.roles_loginOut {nosql : NoSqlDBCache σ} (h : s.Routed)
    (hme : s.roles user = some (s.getObjectId user))
    (hs : s.loginOut nosql user = some s') (u : UserId) (id : ObjectId) :
    s'.roles u = some id ↔ s.roles u = some id ∧ id ≠ s.getObjectId user := by
  have howner := h user _ hme
  rcases loginOut_cases hs with ⟨hnone, -⟩ | ⟨other, hother, -, hroles⟩
  · exact absurd (hnone.symm.trans howner) (by simp)
  · obtain rfl := Option.some.inj (howner.symm.trans hother)
    rw [hroles]
    rcases eq_or_ne u user with rfl | hne
    · rw [Function.update_self, hme]
      simp [eq_comm]
    · rw [Function.update_of_ne hne, iff_self_and]
      rintro hrole rfl
      exact hne (Option.some.inj ((h u _ hrole).symm.trans howner))

/-- A message, to whomever it may be, that does not change what is shown. -/
theorem Telling.send (h : Telling reads loadedAt s₀ s)
    (hshow : ∀ id, s₀.roles user = some id →
      apply reads (s.viewSet id) ⟨user, cmd, body⟩ = s.viewSet id)
    (hack : cmd = .moveAck → s₀.Acknowledges reads loadedAt s.sent ⟨user, cmd, body⟩) :
    Telling reads loadedAt s₀ (s.sendMsgToPlayer user cmd body) where
  same := h.same.trans (samePlayers_sendMsgToPlayer s user cmd body)
  loaded u id hrole := by
    rw [sendMsgToPlayer, List.length_append]
    exact (h.loaded u id hrole).trans (Nat.le_add_right _ _)
  shown u id hrole := by
    rw [sendMsgToPlayer, List.drop_append_of_le_length (h.loaded u id hrole), picture_concat,
      h.shown u id hrole]
    split_ifs with hu
    · obtain rfl : user = u := hu
      exact hshow id hrole
    · rfl
  acks := h.acks.concat fun _ ↦ hack

/-- **A view list is written and its user is told.** -/
theorem Telling.tell (hrouted : s₀.Routed) (h : Telling reads loadedAt s₀ s)
    (hrole : s₀.roles user = some id) (hcmd : cmd ≠ .moveAck)
    (hshow : ∀ seen, apply reads seen ⟨user, cmd, body⟩ = f seen) :
    Telling reads loadedAt s₀ ((s.modifyViewSet id f).sendMsgToPlayer user cmd body) := by
  have hmem : id ∈ s.playerDataCache := by
    rw [← owners_ne_none_iff, h.same.owners, hrouted user id hrole]
    exact Option.some_ne_none user
  have hsent : (s.modifyViewSet id f).sent = s.sent := by
    rw [modifyViewSet, if_pos hmem]
  refine ⟨(h.same.trans (samePlayers_modifyViewSet s id f)).trans (samePlayers_sendMsgToPlayer ..),
    fun u id' hrole' ↦ ?_, fun u id' hrole' ↦ ?_, ?_⟩
  · rw [sendMsgToPlayer, hsent, List.length_append]
    exact (h.loaded u id' hrole').trans (Nat.le_add_right _ _)
  · rw [viewSet_sendMsgToPlayer, viewSet_modifyViewSet hmem, sendMsgToPlayer, hsent,
      List.drop_append_of_le_length (h.loaded u id' hrole'), picture_concat, h.shown u id' hrole']
    rcases eq_or_ne u user with rfl | hne
    · obtain rfl := Option.some.inj (hrole.symm.trans hrole')
      rw [if_pos rfl, if_pos rfl, hshow]
    · -- two users have two players
      have hid : id' ≠ id := by
        rintro rfl
        exact hne (Option.some.inj ((hrouted u id' hrole').symm.trans (hrouted user id' hrole)))
      rw [if_neg fun heq : user = u ↦ hne heq.symm, if_neg hid]
  · rw [sendMsgToPlayer, hsent]
    exact h.acks.concat fun _ heq ↦ absurd heq hcmd

/-- Writing to a view leaves the user who is told about it. -/
theorem Telling.getUserId_modifyViewSet (hrouted : s₀.Routed) (h : Telling reads loadedAt s₀ s)
    (hrole : s₀.roles user = some id) : (s.modifyViewSet id f).getUserId id = user :=
  getUserId_eq (by
    rw [(h.same.trans (samePlayers_modifyViewSet s id f)).owners, hrouted user id hrole])

theorem Telling.setTowerAoi (h : Telling reads loadedAt s₀ s) (toweraoi : TowerAoi) :
    Telling reads loadedAt s₀ (s.setTowerAoi toweraoi) :=
  ⟨h.same.trans (samePlayers_setTowerAoi s toweraoi), h.loaded, h.shown, h.acks⟩

theorem Telling.setPlayerMapData (h : Telling reads loadedAt s₀ s) (mapData : PlayerMapData) :
    Telling reads loadedAt s₀ (s.setPlayerMapData id mapData) := by
  refine ⟨h.same.trans (samePlayers_setPlayerMapData s id mapData), h.loaded, fun u id' hrole ↦ ?_,
    h.acks⟩
  rw [viewSet_setPlayerMapData]
  exact h.shown u id' hrole

/-! ### The routines of the map module -/

/-- **One disappearance** is told on both sides, and leaves both pictures as the views are. -/
theorem Telling.delViewPlayer (hrouted : s₀.Routed) (h : Telling reads loadedAt s₀ s)
    (hme : s₀.roles user = some me) (hhim : ∃ u, s₀.roles u = some him) :
    Telling reads loadedAt s₀ (s.delViewPlayer user me him) := by
  obtain ⟨u, hu⟩ := hhim
  have hmine : Telling reads loadedAt s₀ ((s.modifyViewSet me (·.erase him)).sendMsgToPlayer user
      .delobj (.mapDelObject ⟨him⟩)) := h.tell hrouted hme (by decide) apply_mapDelObject
  simp only [LogicServer.delViewPlayer]
  split_ifs
  · rw [hmine.getUserId_modifyViewSet hrouted hu]
    exact hmine.tell hrouted hu (by decide) apply_mapDelObject
  · exact hmine
  · exact h

theorem Telling.sendDelViewPlayers (hrouted : s₀.Routed) (hme : s₀.roles user = some me)
    {del : List ObjectId} (hdel : ∀ him ∈ del, ∃ u, s₀.roles u = some him)
    (h : Telling reads loadedAt s₀ s) :
    Telling reads loadedAt s₀ (s.sendDelViewPlayers user me del) := by
  induction del generalizing s with
  | nil => exact h
  | cons him rest ih =>
    rw [LogicServer.sendDelViewPlayers]
    split_ifs
    · exact ih (fun i hi ↦ hdel i (List.mem_cons_of_mem _ hi))
        (h.delViewPlayer hrouted hme (hdel him List.mem_cons_self))
    · exact h

/-- **One appearance** is told on both sides, where both players are in the cache. -/
theorem Telling.addViewPlayer (hrouted : s₀.Routed) (h : Telling reads loadedAt s₀ s)
    (hme : s₀.roles user = some me) (hhim : ∃ u, s₀.roles u = some him) (mapData : PlayerMapData) :
    Telling reads loadedAt s₀ (s.addViewPlayer user me mapData him) := by
  obtain ⟨u, hu⟩ := hhim
  simp only [LogicServer.addViewPlayer]
  cases s.getPlayerMapData him with
  | none =>
    dsimp only
    rwa [ite_self]
  | some objMapData =>
    have hmine : Telling reads loadedAt s₀ ((s.modifyViewSet me (·.insert him)).sendMsgToPlayer user
        .addobj (addObject him objMapData)) :=
      h.tell hrouted hme (by decide) fun seen ↦ apply_addObject seen objMapData
    dsimp only
    split_ifs
    · rw [hmine.getUserId_modifyViewSet hrouted hu]
      exact hmine.tell hrouted hu (by decide) fun seen ↦ apply_addObject seen mapData
    · exact h
    · exact h

theorem Telling.sendAddViewPlayers (hrouted : s₀.Routed) (hme : s₀.roles user = some me)
    (mapData : PlayerMapData) {add : List ObjectId} (hadd : ∀ him ∈ add, ∃ u, s₀.roles u = some him)
    (h : Telling reads loadedAt s₀ s) :
    Telling reads loadedAt s₀ (s.sendAddViewPlayers user me mapData add) := by
  induction add generalizing s with
  | nil => exact h
  | cons him rest ih =>
    exact ih (fun i hi ↦ hadd i (List.mem_cons_of_mem _ hi))
      (h.addViewPlayer hrouted hme (hadd him List.mem_cons_self) mapData)

/-- A move is broadcast to users whose players have the mover in view. -/
theorem Telling.broadcastMsg {ack : AckMove} {users : List UserId}
    (husers : ∀ u ∈ users, ∃ id, s₀.roles u = some id ∧ ack.tmpid ∈ s.viewSet id)
    (h : Telling reads loadedAt s₀ s) :
    Telling reads loadedAt s₀ (s.broadcastMsg users .moveAck (.ackMove ack)) := by
  induction users generalizing s with
  | nil => exact h
  | cons u users ih =>
    refine ih (fun u hu ↦ husers u (List.mem_cons_of_mem _ hu)) (h.send (fun id _ ↦ ?_) fun _ ↦ ?_)
    · exact apply_of_ne (by decide) (by decide) _
    · obtain ⟨id, hrole, hin⟩ := husers u List.mem_cons_self
      exact ⟨ack, rfl, Or.inr ⟨id, hrole, by rwa [h.shown u id hrole]⟩⟩

/-- **A move is told about** to those who have the mover in view, and whose clients show it. -/
theorem Telling.sendMoveViewPlayers (hrouted : s₀.Routed) (hme : s₀.roles user = some me)
    (hmut : s.Mutual) (hview : ∀ him ∈ s.viewSet me, ∃ u, s₀.roles u = some him)
    (mapData : PlayerMapData) (movecmd : ReqMove) (h : Telling reads loadedAt s₀ s) :
    Telling reads loadedAt s₀ (s.sendMoveViewPlayers user me mapData movecmd) := by
  refine (h.broadcastMsg fun u hu ↦ ?_).send (fun id _ ↦ apply_of_ne (by decide) (by decide) _)
    fun _ ↦ ⟨_, rfl, Or.inl (hrouted user me hme)⟩
  obtain ⟨him, hhim, huser⟩ := List.mem_filterMap.1 hu
  rw [Std.ExtTreeSet.mem_toList] at hhim
  obtain ⟨u', hu'⟩ := hview him hhim
  refine ⟨him, ?_, hmut me him hhim⟩
  -- the user that is looked up is the one whose player it is
  have howner : s.owners him = some u := by
    obtain ⟨p, hp, rfl⟩ := Option.map_eq_some_iff.1 huser
    rw [owners, baseData, hp]
    rfl
  rw [h.same.owners, hrouted u' him hu'] at howner
  rwa [← Option.some.inj howner]

/-- A move tells every client concerned: those who come into view, those who leave it, and the one
who moves. -/
theorem Telling.moveViews {d : PlayerMapData} {out : MoveSets} (hrouted : s₀.Routed)
    (h : Telling reads loadedAt s₀ s) (hme : s₀.roles user = some me)
    (hdata : s.getPlayerMapData me = some d)
    (hdef : s.defultObjectSet = ∅) (hmut : s.Mutual)
    (hview : ∀ him ∈ s.viewSet me, ∃ u, s₀.roles u = some him)
    (hdel : ∀ him ∈ out.wremove, ∃ u, s₀.roles u = some him)
    (hadd : ∀ him ∈ out.winsert, ∃ u, s₀.roles u = some him) (p : Point) (movecmd : ReqMove) :
    Telling reads loadedAt s₀ (s.moveViews user me { d with location := p } movecmd out) := by
  have hunlinked := mem_viewSet_sendDelViewPlayers hdef hmut user me out.wremove.toList
  rw [moveViews_eq hdata]
  refine .setPlayerMapData (.sendAddViewPlayers hrouted hme _
    (fun him hin ↦ hadd him (Std.ExtTreeSet.mem_toList.1 hin)) (.sendMoveViewPlayers hrouted hme
      (mutual_of_unlinked hmut hunlinked) (fun him hin ↦ ?_) _ _ (.sendDelViewPlayers hrouted hme
        (fun him hin ↦ hdel him (Std.ExtTreeSet.mem_toList.1 hin)) h))) _
  exact hview him ((hunlinked me him).1 hin).1

end LogicServer

/-- The server, and how many messages had been sent when a player was loaded. -/
structure Mirroring (σ : Type) where
  server : LogicServer σ
  loadedAt : ObjectId → ℕ

namespace Mirroring

open LogicServer

variable {σ : Type} (reads : AckMove → ObjectId) (nosql : NoSqlDBCache σ)

/-- A player that was not in the cache before is loaded after what has been sent. -/
def note (s : Mirroring σ) (server : LogicServer σ) : Mirroring σ where
  server
  loadedAt id := if id ∈ s.server.playerDataCache then s.loadedAt id else s.server.sent.length

/-- Handle one message. -/
def step (s : Mirroring σ) (e : Event) : Option (Mirroring σ) := (s.server.step nosql e).map s.note

/-- **Mirrored.** For every player that is reached through its user, what the client of the user
shows, of what has been sent since the player was loaded, is the view list of the player. -/
def Mirrored (s : Mirroring σ) : Prop :=
  ∀ user id, s.server.roles user = some id → s.server.owners id = some user →
    picture reads user (s.server.sent.drop (s.loadedAt id)) = s.server.viewSet id

/-- A `MOVE_ACK` that is sent in this step goes to the user of the player it is about, or to one
whose client shows the player at that moment. -/
def Acked (s : Mirroring σ) (e : Event) : Prop :=
  ∀ s', s.step nosql e = some s' → Each (fun pre p ↦ s.server.sent.length ≤ pre.length →
    p.cmd = .moveAck → s.server.Acknowledges reads s.loadedAt pre p) s'.server.sent

/-- A user without a player does not act as the player `0`. And a move that fails is not one of a
player that has in view what its client takes for the `tmpId` of the answer. -/
def Heeds (s : Mirroring σ) : Event → Prop
  | .clientReady user | .logout user =>
    s.server.roles user = none → 0 ∉ s.server.playerDataCache
  | .move user cmd =>
    (s.server.roles user = none → 0 ∉ s.server.playerDataCache) ∧
      (s.server.map.isGridCanWalk
          ((s.server.getPlayerMapData (s.server.getObjectId user)).getD {}).mapId cmd.dstPoint =
        some false →
        reads (s.server.moveFailed (s.server.getObjectId user)) ∉
          s.server.viewSet (s.server.getObjectId user))
  | .createRole _ _ | .enterGame _ _ => True

instance (s : Mirroring σ) : ∀ e, Decidable (s.Heeds reads e)
  | .clientReady user | .logout user =>
    inferInstanceAs (Decidable (s.server.roles user = none → 0 ∉ s.server.playerDataCache))
  | .move _ _ =>
    inferInstanceAs (Decidable ((_ = _ → 0 ∉ s.server.playerDataCache) ∧ (_ = _ → _ ∉ _)))
  | .createRole _ _ | .enterGame _ _ => isTrue trivial

/-- **The invariant**: the views are safe, all who are on the map are reached through their users,
and the clients show the views. -/
structure Sound (reads : AckMove → ObjectId) (g : TowerInfo) (s : Mirroring σ)
    (B : Board ObjectId (Int × Int)) : Prop where
  safe : s.server.Safe g B
  routed : s.server.Routed
  reached : ∀ id t, B.At id t → ∃ user, s.server.roles user = some id
  loaded : ∀ user id, s.server.roles user = some id → s.loadedAt id ≤ s.server.sent.length
  shown : ∀ user id, s.server.roles user = some id →
    picture reads user (s.server.sent.drop (s.loadedAt id)) = s.server.viewSet id

variable {reads} {nosql} {g : TowerInfo} {s : Mirroring σ} {s' : LogicServer σ}
  {B B' : Board ObjectId (Int × Int)} {user : UserId} {me : ObjectId} {t : Int × Int}

/-- In a sound state every picture is the view, so the steps of a handler can start from there. -/
theorem Sound.telling (h : Sound reads g s B) :
    Telling reads s.loadedAt s.server s.server :=
  ⟨.refl s.server, h.loaded, h.shown, each_of_length_le⟩

/-- A role that was in the cache before has been loaded when it was. -/
theorem loadedAt_note (h : me ∈ s.server.playerDataCache) :
    (s.note s').loadedAt me = s.loadedAt me :=
  if_pos h

/-- A role that is new in the cache has been loaded with this step. -/
theorem loadedAt_note_of_notMem (h : me ∉ s.server.playerDataCache) :
    (s.note s').loadedAt me = s.server.sent.length :=
  if_neg h

/-- What has been told is sound again, with the players as they were. -/
theorem Sound.of_telling (h : Sound reads g s B) (ht : Telling reads s.loadedAt s.server s')
    (hsafe : s'.Safe g B') (hreached : ∀ id t, B'.At id t → ∃ user, s.server.roles user = some id) :
    Sound reads g (s.note s') B' where
  safe := hsafe
  routed := h.routed.congr ht.same
  reached id t hat := by
    show ∃ user, s'.roles user = some id
    rw [ht.same.roles]
    exact hreached id t hat
  loaded user id hrole := by
    have hrole' : s'.roles user = some id := hrole
    rw [ht.same.roles] at hrole'
    rw [loadedAt_note (h.routed.mem hrole')]
    exact ht.loaded user id hrole'
  shown user id hrole := by
    have hrole' : s'.roles user = some id := hrole
    rw [ht.same.roles] at hrole'
    rw [loadedAt_note (h.routed.mem hrole')]
    exact ht.shown user id hrole'

/-- Who is told about a tower is reached through a user. -/
theorem Sound.reached_of_watches (h : Sound reads g s B) {id : ObjectId}
    (hw : B.Watches g.Near id t) : ∃ user, s.server.roles user = some id := by
  obtain ⟨t', hat, -⟩ := h.safe.watches_iff.1 hw
  exact h.reached id t' hat

/-- Who is in view is the role of a user, and so can be told. -/
theorem Sound.reached_of_mem (h : Sound reads g s B) {id : ObjectId}
    (hid : id ∈ s.server.viewSet me) : ∃ user, s.server.roles user = some id := by
  obtain ⟨-, t, -, hat, -⟩ := h.safe.meets me id hid
  exact h.reached id t hat

/-- A cached player that acts is the one of its user. -/
theorem roles_of_heeds (h : s.server.roles user = none → 0 ∉ s.server.playerDataCache)
    (hmem : s.server.getObjectId user ∈ s.server.playerDataCache) :
    s.server.roles user = some (s.server.getObjectId user) := by
  rw [getObjectId_eq] at hmem ⊢
  cases hrole : s.server.roles user with
  | none =>
    rw [hrole] at hmem
    exact absurd hmem (h hrole)
  | some id => rfl

/-- Who stands somewhere after the move of a user's own role is reached. -/
theorem reached_put (h : Sound reads g s B) (hme : s.server.roles user = some me) {id : ObjectId}
    {t' : Int × Int} (hat : (B.put me .watcher t).At id t') :
    ∃ user, s.server.roles user = some id := by
  rw [Board.at_put] at hat
  split_ifs at hat with hid
  · exact ⟨user, hid ▸ hme⟩
  · exact h.reached id t' hat

/-! ### One handler at a time -/

theorem sent_delPlayerData (server : LogicServer σ) (id : ObjectId) :
    (server.delPlayerData nosql id).1.sent = server.sent := by
  rw [delPlayerData]
  split <;> rfl

/-- What a handler has to leave. -/
def Leaves (reads : AckMove → ObjectId) (g : TowerInfo) (s : Mirroring σ) (s' : LogicServer σ) :
    Prop :=
  (∃ B', Sound reads g (s.note s') B') ∧ Each (fun pre p ↦ s.server.sent.length ≤ pre.length →
    p.cmd = .moveAck → s.server.Acknowledges reads s.loadedAt pre p) s'.sent

/-- **`CLIENT_READY`**: the appearances on both sides are told as they happen. -/
theorem Sound.clientReady (hg : g.Sound) (h : Sound reads g s B)
    (hheeds : s.Heeds reads (.clientReady user)) :
    ∃ s', s.server.clientReady user = some s' ∧ Leaves reads g s s' := by
  rw [LogicServer.clientReady]
  cases hdata : s.server.getPlayerMapData (s.server.getObjectId user) with
  | none =>
    exact ⟨_, addUserToMap_of_none hdata, ⟨B, h.of_telling h.telling h.safe h.reached⟩,
      h.telling.acks⟩
  | some d =>
    have hmem : s.server.getObjectId user ∈ s.server.playerDataCache := by
      rw [mem_iff_getPlayerMapData, hdata]
      rfl
    have hme := roles_of_heeds hheeds hmem
    obtain ⟨toweraoi, told, heq, -, htold⟩ := h.safe.toPlaced.addUserToMap hg hdata user
    obtain ⟨s', heq', hsafe⟩ := h.safe.addUserToMap hg hdata user
    obtain rfl := Option.some.inj (heq.symm.trans heq')
    have ht := (h.telling.setTowerAoi toweraoi).sendAddViewPlayers h.routed hme d
      fun him hin ↦ h.reached_of_watches ((htold him).1 hin)
    exact ⟨_, heq, ⟨_, h.of_telling ht hsafe fun id t hat ↦ reached_put h hme hat⟩, ht.acks⟩

/-- **`MOVE`**, to a cell inside the map: who is lost from view disappears, who comes into view
appears, and a refused move is told under the command of a disappearance, which the condition has to
allow for. -/
theorem Sound.playerMove {cmd : ReqMove} (hg : g.Sound) (hgrid : g.HasGrid) (h : Sound reads g s B)
    (hp : g.InMap cmd.dstPoint) (hheeds : s.Heeds reads (.move user cmd)) :
    ∃ s', s.server.playerMove user (s.server.getObjectId user) cmd = some s' ∧
      Leaves reads g s s' := by
  obtain ⟨hacts, hfails⟩ := hheeds
  obtain ⟨walk, hwalk⟩ := h.safe.ready.exists_isGridCanWalk hp
  by_cases hmoves : ∃ d, s.server.getPlayerMapData (s.server.getObjectId user) = some d ∧
      walk = true
  · obtain ⟨d, hdata, rfl⟩ := hmoves
    have hmem : s.server.getObjectId user ∈ s.server.playerDataCache := by
      rw [mem_iff_getPlayerMapData, hdata]
      rfl
    have hme := roles_of_heeds hacts hmem
    obtain ⟨toweraoi, out, heq, -, hout⟩ := h.safe.toPlaced.playerMove hg hdata hwalk hp user
    obtain ⟨s', heq', hsafe⟩ := h.safe.playerMove_of_walks hg hp hdata hwalk user
    obtain rfl := Option.some.inj (heq.symm.trans heq')
    have ht := (h.telling.setTowerAoi toweraoi).moveViews h.routed hme hdata h.safe.defult
      h.safe.isMutual (fun him ↦ h.reached_of_mem)
      (fun him hin ↦ ((hout.wremove him).1 hin).elim
        (fun hin ↦ absurd hin Std.ExtTreeSet.not_mem_empty) fun hin ↦ h.reached_of_watches hin.2.1)
      (fun him hin ↦ ((hout.winsert him).1 hin).elim
        (fun hin ↦ absurd hin Std.ExtTreeSet.not_mem_empty) fun hin ↦ h.reached_of_watches hin.2.1)
      cmd.dstPoint cmd
    refine ⟨_, heq, ⟨_, h.of_telling ht hsafe fun id t hat ↦ ?_⟩, ht.acks⟩
    split_ifs at hat
    · exact h.reached id t hat
    · exact reached_put h hme hat
  · have hstays : s.server.map.isGridCanWalk
        ((s.server.getPlayerMapData (s.server.getObjectId user)).getD {}).mapId cmd.dstPoint =
          some false := by
      cases hdata : s.server.getPlayerMapData (s.server.getObjectId user) with
      | none =>
        rw [← hdata]
        exact isGridCanWalk_of_none h.safe.ready hdata _
      | some d =>
        have hfalse : walk = false :=
          Bool.eq_false_of_not_eq_true fun htrue ↦ hmoves ⟨d, hdata, htrue⟩
        rw [Option.getD_some, h.safe.mapId _ d hdata, hwalk, hfalse]
    have ht : Telling reads s.loadedAt s.server (s.server.sendMsgToPlayer user .delobj
        (.ackMove (s.server.moveFailed (s.server.getObjectId user)))) := by
      refine h.telling.send (fun id hrole ↦ ?_) fun heq ↦ absurd heq (by decide)
      -- the answer deletes nothing that is in view
      have hid : s.server.getObjectId user = id := by rw [getObjectId_eq, hrole, Option.getD_some]
      rw [apply_ackMove, ← hid, ObjectSet.erase_of_notMem (hfails hstays)]
    exact ⟨_, playerMove_of_fails user hstays, ⟨B, h.of_telling ht
      ((joined_sendMsgToPlayer h.safe.defult ..).safe hgrid h.safe) h.reached⟩, ht.acks⟩

/-- **A logout** makes the role disappear for all who saw it, before it leaves the cache. -/
theorem Sound.loginOut (nosql : NoSqlDBCache σ) (hg : g.Sound) (h : Sound reads g s B)
    (hheeds : s.Heeds reads (.logout user)) :
    ∃ s', s.server.loginOut nosql user = some s' ∧ Leaves reads g s s' := by
  by_cases hmem : s.server.getObjectId user ∈ s.server.playerDataCache
  · have hme := roles_of_heeds hheeds hmem
    obtain ⟨s', hs', hsafe, -⟩ := h.safe.loginOut_of_mem nosql hg hmem
    obtain ⟨d, hdata⟩ := Option.isSome_iff_exists.1 (mem_iff_getPlayerMapData.1 hmem)
    obtain ⟨toweraoi, told, heq, -, htold⟩ := h.safe.toPlaced.delUserFromMap hg nosql hdata user
    have ht := (h.telling.setTowerAoi toweraoi).sendDelViewPlayers h.routed hme
      fun him hin ↦ h.reached_of_watches ((htold him).1 hin).2
    have hframe := frame_sendDelViewPlayers (s := s.server.setTowerAoi toweraoi) h.safe.defult user
      (s.server.getObjectId user) told
    -- the player goes when everything has been told
    have hout : s' = (((s.server.setTowerAoi toweraoi).sendDelViewPlayers user
        (s.server.getObjectId user) told).delPlayerData nosql (s.server.getObjectId user)).1 := by
      simp only [LogicServer.loginOut, havePlayerData, decide_eq_true_eq, if_pos hmem, heq] at hs'
      exact (Option.some.inj hs').symm
    obtain ⟨-, -, hview, -⟩ := delPlayerData_spec nosql (hframe.defult.trans h.safe.defult)
      ((hframe.mem_iff _).2 hmem)
    have hsent : s'.sent = ((s.server.setTowerAoi toweraoi).sendDelViewPlayers user
        (s.server.getObjectId user) told).sent := by rw [hout, sent_delPlayerData]
    have hroles := h.routed.roles_loginOut hme hs'
    refine ⟨s', hs', ⟨_, ⟨hsafe, h.routed.loginOut hs', fun id t hat ↦ ?_, fun u id hrole ↦ ?_,
      fun u id hrole ↦ ?_⟩⟩, by rw [hsent]; exact ht.acks⟩
    · obtain ⟨hne, hat⟩ := Board.at_remove.1 hat
      obtain ⟨u, hrole⟩ := h.reached id t hat
      exact ⟨u, (hroles u id).2 ⟨hrole, hne⟩⟩
    · obtain ⟨hrole, -⟩ := (hroles u id).1 hrole
      rw [loadedAt_note (h.routed.mem hrole)]
      show _ ≤ s'.sent.length
      rw [hsent]
      exact ht.loaded u id hrole
    · obtain ⟨hrole, hne⟩ := (hroles u id).1 hrole
      rw [loadedAt_note (h.routed.mem hrole)]
      show picture reads u (s'.sent.drop _) = s'.viewSet id
      rw [hsent, ht.shown u id hrole, hout, hview, if_neg hne]
  · exact ⟨_, loginOut_of_notMem nosql hmem, ⟨B, h.of_telling h.telling h.safe h.reached⟩,
      h.telling.acks⟩

/-- A player may join, and somebody is told about something else. -/
theorem Sound.join {cmd : WholeCmd} {body : Body} (hgrid : g.HasGrid) (h : Sound reads g s B)
    (hjoined : Joined s.server s') (hrouted : s'.Routed)
    (hold : ∀ u id, s.server.roles u = some id → s'.roles u = some id)
    (hnew : ∀ u id, s'.roles u = some id →
      s.server.roles u = some id ∨ id ∉ s.server.playerDataCache)
    (hsent : s'.sent = s.server.sent ++ [⟨user, cmd, body⟩]) (hadd : cmd ≠ .addobj)
    (hdel : cmd ≠ .delobj) (hack : cmd ≠ .moveAck) : Leaves reads g s s' := by
  refine ⟨⟨B, hjoined.safe hgrid h.safe, hrouted, fun id t hat ↦ ?_, fun u id hrole ↦ ?_,
    fun u id hrole ↦ ?_⟩, by rw [hsent]; exact each_of_length_le.concat fun _ heq ↦ absurd heq hack⟩
  · obtain ⟨u, hrole⟩ := h.reached id t hat
    exact ⟨u, hold u id hrole⟩
  · show _ ≤ s'.sent.length
    rw [hsent, List.length_append]
    rcases hnew u id hrole with hrole | hnot
    · rw [loadedAt_note (h.routed.mem hrole)]
      exact (h.loaded u id hrole).trans (Nat.le_add_right _ _)
    · rw [loadedAt_note_of_notMem hnot]
      exact Nat.le_add_right _ _
  · show picture reads u (s'.sent.drop _) = s'.viewSet id
    rw [hsent, hjoined.viewSet]
    rcases hnew u id hrole with hrole | hnot
    · rw [loadedAt_note (h.routed.mem hrole), List.drop_append_of_le_length (h.loaded u id hrole),
        picture_concat, h.shown u id hrole, apply_of_ne hadd hdel, ite_self]
    · -- a player that has just been loaded has nobody in view
      rw [loadedAt_note_of_notMem hnot, List.drop_left, viewSet_of_notMem hnot, h.safe.defult,
        ← List.nil_append [_], picture_concat, apply_of_ne hadd hdel, ite_self]
      rfl

/-- **A role comes into the cache**: it sees nobody yet, and its picture begins here. -/
theorem Sound.addPlayer {cmd : WholeCmd} {body : Body} {x : PlayerDataMsg} (hgrid : g.HasGrid)
    (h : Sound reads g s B) (hjoined : Joined s.server s')
    (hsame : SamePlayers (s.server.addPlayerData x).1 s')
    (hsent : s'.sent = s.server.sent ++ [⟨user, cmd, body⟩]) (hadd : cmd ≠ .addobj)
    (hdel : cmd ≠ .delobj) (hack : cmd ≠ .moveAck) : Leaves reads g s s' := by
  refine h.join hgrid hjoined ((h.routed.addPlayerData x).congr hsame) (fun u id hrole ↦ ?_)
    (fun u id hrole ↦ ?_) hsent hadd hdel hack
  · rw [hsame.roles]
    exact roles_addPlayerData hrole x
  · rw [hsame.roles] at hrole
    by_cases hmem : x.objectId ∈ s.server.playerDataCache
    · rw [addPlayerData_of_mem hmem] at hrole
      exact Or.inl hrole
    · rcases (roles_addPlayerData_eq_some_iff hmem).1 hrole with hrole | ⟨-, rfl, -⟩
      · exact Or.inl hrole
      · exact Or.inr hmem

theorem sent_addPlayerData (server : LogicServer σ) (x : PlayerDataMsg) :
    (server.addPlayerData x).1.sent = server.sent := by
  rw [addPlayerData]
  split_ifs <;> rfl

theorem sent_loadPlayerDataFromDb (server : LogicServer σ) (id : ObjectId) :
    (server.loadPlayerDataFromDb nosql id).1.sent = server.sent := by
  cases hstored : server.storedPlayer nosql id with
  | none => rw [loadPlayerDataFromDb_of_none hstored]
  | some x => rw [loadPlayerDataFromDb_of_some hstored, sent_addPlayerData]

theorem sent_newAndSavePlayerData (server : LogicServer σ) (x : PlayerDataMsg) :
    (server.newAndSavePlayerData nosql x).1.sent = server.sent := by
  simp only [newAndSavePlayerData]
  split_ifs
  · exact sent_addPlayerData server.getNextObjId.1 _
  · exact sent_addPlayerData server.getNextObjId.1 _

/-- **`ENTER_GAME`** puts a role into the cache, and nothing is seen before it is ready. -/
theorem Sound.enterGame (nosql : NoSqlDBCache σ) (hgrid : g.HasGrid) (h : Sound reads g s B)
    (enter : ReqEnterGame) : Leaves reads g s (s.server.enterGame nosql user enter) := by
  obtain ⟨body, hsent⟩ : ∃ body, (s.server.enterGame nosql user enter).sent =
      s.server.sent ++ [⟨user, .enterGameAck, body⟩] := by
    simp only [LogicServer.enterGame]
    split_ifs
    · exact ⟨_, rfl⟩
    · exact ⟨_, congrArg (· ++ _) (sent_loadPlayerDataFromDb _ _)⟩
    · exact ⟨_, congrArg (· ++ _) (sent_loadPlayerDataFromDb _ _)⟩
  have hjoined : Joined s.server (s.server.enterGame nosql user enter) :=
    enterGame_joined h.safe.defult user enter
  rcases enterGame_cases nosql s.server user enter with ⟨x, -, -, -, hsame⟩ | ⟨hsame, -⟩
  · exact h.addPlayer hgrid hjoined hsame hsent (by decide) (by decide) (by decide)
  · refine h.join hgrid hjoined (h.routed.congr hsame) (fun u id hrole ↦ ?_)
      (fun u id hrole ↦ Or.inl ?_) hsent (by decide) (by decide) (by decide)
    · rwa [hsame.roles]
    · rwa [hsame.roles] at hrole

/-- **`CREATE_ROLE`** puts a new role into the cache, and nothing is seen before it is ready. -/
theorem Sound.createPlayer (nosql : NoSqlDBCache σ) (hgrid : g.HasGrid) (h : Sound reads g s B)
    (role : ReqCreateRole) : Leaves reads g s (s.server.createPlayer nosql user role) := by
  obtain ⟨body, hsent⟩ : ∃ body, (s.server.createPlayer nosql user role).sent =
      s.server.sent ++ [⟨user, .createRoleAck, body⟩] :=
    ⟨_, congrArg (· ++ _) (sent_newAndSavePlayerData _ _)⟩
  exact h.addPlayer hgrid (createPlayer_joined h.safe.defult user role)
    (samePlayers_createPlayer nosql s.server user role) hsent
    (by decide) (by decide) (by decide)

/-- **Every message leaves the clients in the picture**, if it heeds what it has to. -/
theorem Sound.exists_step (nosql : NoSqlDBCache σ) (hg : g.Sound) (hgrid : g.HasGrid)
    (h : Sound reads g s B) {e : Event} (hin : e.Inside g) (hheeds : s.Heeds reads e) :
    ∃ s', s.server.step nosql e = some s' ∧ Leaves reads g s s' := by
  cases e with
  | createRole user role => exact ⟨_, rfl, h.createPlayer nosql hgrid role⟩
  | enterGame user enter => exact ⟨_, rfl, h.enterGame nosql hgrid enter⟩
  | clientReady user => exact h.clientReady hg hheeds
  | move user cmd => exact h.playerMove hg hgrid hin hheeds
  | logout user => exact h.loginOut nosql hg hheeds

/-! ### Runs -/

/-- A server that has just been started. -/
def start (map : GameMap) (gCount : UInt64) (db : σ) : Mirroring σ where
  server := .start map gCount db
  loadedAt _ := 0

/-- To begin with there are no roles, no views and no pictures. -/
theorem start_sound {w h : Int} {m : GameMap} {cells : List MapGrid}
    (hm : GameMap.testTnit w h = some m) (hcells : (cells.length : Int) = w * h) (gCount : UInt64)
    (db : σ) :
    Sound reads m.toweraoi.toTowerInfo (start (m.withGrid cells) gCount db) Board.empty where
  safe := start_safe hm hcells gCount db
  routed user id hrole := by simp [start, LogicServer.start, roles] at hrole
  reached id t hat := absurd hat (Board.not_at_of_none rfl)
  loaded user id hrole := Nat.zero_le _
  shown user id hrole := by simp [start, LogicServer.start, roles] at hrole

/-- **The pictures match.** On a map of any size with a square tower grid, with any flags in its
cells, with anything in the store, and whatever id a client takes from the answer to a move that has
failed: in a run of messages that ask for cells inside the map and heed what they have to, clients
show the view lists of their players in every state, and every `MOVE_ACK` goes to the user of its
player or to one whose client shows the player. -/
theorem mirrored_of_heeds {w h : Int} {m : GameMap} {cells : List MapGrid}
    (hm : GameMap.testTnit w h = some m) (hw : 1 < w) (hh : 1 < h)
    (hsq : m.toweraoi.towerXN = m.toweraoi.towerYN) (hcells : (cells.length : Int) = w * h)
    (reads : AckMove → ObjectId) (nosql : NoSqlDBCache σ) (gCount : UInt64) (db : σ)
    (events : List Event) (hin : ∀ e ∈ events, e.Inside m.toweraoi.toTowerInfo)
    (hheeds : Guarded (step nosql) (Heeds reads) (start (m.withGrid cells) gCount db) events) :
    (∃ s, run (step nosql) (start (m.withGrid cells) gCount db) events = some s) ∧
      Throughout (step nosql) (Mirrored reads) (start (m.withGrid cells) gCount db) events ∧
      Guarded (step nosql) (Acked reads nosql) (start (m.withGrid cells) gCount db) events := by
  have hg : m.toweraoi.Sound := ⟨testTnit_regular hm, hsq⟩
  have hgrid := testTnit_hasGrid hm hw hh
  have hstart : ∃ B, Sound reads m.toweraoi.toTowerInfo (start (m.withGrid cells) gCount db) B :=
    ⟨_, start_sound hm hcells gCount db⟩
  have hok := (guarded_of_forall hin).and hheeds
  have hstep : ∀ (s : Mirroring σ) (e : Event), (∃ B, Sound reads m.toweraoi.toTowerInfo s B) →
      e.Inside m.toweraoi.toTowerInfo ∧ s.Heeds reads e →
        ∃ s', s.server.step nosql e = some s' ∧ Leaves reads m.toweraoi.toTowerInfo s s' :=
    fun s e ⟨B, hs⟩ he ↦ hs.exists_step nosql hg hgrid he.1 he.2
  have hkeeps : ∀ (s : Mirroring σ) (e : Event) s', (∃ B, Sound reads m.toweraoi.toTowerInfo s B) →
      e.Inside m.toweraoi.toTowerInfo ∧ s.Heeds reads e → s.step nosql e = some s' →
        ∃ B, Sound reads m.toweraoi.toTowerInfo s' B := by
    intro s e s' hs he heq
    obtain ⟨server, hserver, hleaves, -⟩ := hstep s e hs he
    rw [step, hserver] at heq
    obtain rfl := Option.some.inj heq
    exact hleaves
  have hdefined : ∀ (s : Mirroring σ) (e : Event), (∃ B, Sound reads m.toweraoi.toTowerInfo s B) →
      e.Inside m.toweraoi.toTowerInfo ∧ s.Heeds reads e → ∃ s', s.step nosql e = some s' ∧
        ∃ B, Sound reads m.toweraoi.toTowerInfo s' B := by
    intro s e hs he
    obtain ⟨server, hserver, hleaves, -⟩ := hstep s e hs he
    exact ⟨s.note server, by rw [step, hserver]; rfl, hleaves⟩
  refine ⟨?_, throughout_of_guarded (fun s ⟨B, hs⟩ user id hrole _ ↦ hs.shown user id hrole) hkeeps
    hstart hok, ?_⟩
  · obtain ⟨s, hrun, -⟩ := exists_run hdefined hstart hok
    exact ⟨s, hrun⟩
  · refine ((guarded_inv hkeeps hstart hok).and hok).mono fun s e ⟨hs, he⟩ s' heq ↦ ?_
    obtain ⟨server, hserver, -, hacks⟩ := hstep s e hs he
    rw [step, hserver] at heq
    obtain rfl := Option.some.inj heq
    exact hacks

/-- A server with a cell that cannot be walked on, `(2, 1)`, and three stored players: `1` and `2`,
of the users `7` and `8`, and one of user `9` that is stored without an id. -/
def sampleStart : Mirroring (List (String × List KeyValue) × List (String × List String)) :=
  start (sampleMap.withGrid ((List.replicate 900 {}).set 32 ⟨1⟩)) 0
    ([(playerKey 1, PlayerDataMsg.structToMap { objectId := 1, userId := 7 } []),
      (playerKey 2, PlayerDataMsg.structToMap { objectId := 2, userId := 8 } []),
      (playerKey 3, [⟨"m_user_id", "9"⟩])], [])

/-- Two users enter, get ready, move about and lose sight of each other, and one of them runs into
the cell. -/
def sampleVisit : List Event :=
  [.enterGame 7 ⟨1⟩, .enterGame 8 ⟨2⟩, .clientReady 7, .clientReady 8,
    .move 7 { curx := 2, cury := 1 }, .move 7 { curx := 3, cury := 1 },
    .move 8 { curx := 29, cury := 29 }, .logout 8]

/-- Two users meet, one of them leaves, and at every point their pictures are their views. -/
theorem mirrored_sampleVisit : (∃ s, run (step .inMemory) sampleStart sampleVisit = some s) ∧
    Throughout (step .inMemory) (Mirrored (·.tmpid)) sampleStart sampleVisit ∧
    Guarded (step .inMemory) (Acked (·.tmpid) .inMemory) sampleStart sampleVisit :=
  mirrored_of_heeds testTnit_sampleMap (by decide) (by decide) (by decide +kernel)
    (by decide +kernel) (·.tmpid) .inMemory 0 _ sampleVisit (by decide +kernel) (by decide +kernel)

/-- A run within the map after which a client does not show the view list of its player. -/
def Differs (reads : AckMove → ObjectId) (events : List Event) : Prop :=
  (∀ e ∈ events, e.Inside sampleMap.toweraoi.toTowerInfo) ∧
    ∃ s, run (step .inMemory) sampleStart events = some s ∧ ¬ s.Mirrored reads

/-- A run that ends with a picture that is not the view, without a step out of the map. -/
theorem differs_of_ne {events : List Event} (user : UserId) (id : ObjectId)
    (hin : ∀ e ∈ events, e.Inside sampleMap.toweraoi.toTowerInfo)
    (h : ∃ s ∈ run (step .inMemory) sampleStart events, s.server.roles user = some id ∧
      s.server.owners id = some user ∧
        picture reads user (s.server.sent.drop (s.loadedAt id)) ≠ s.server.viewSet id) :
    Differs reads events := by
  obtain ⟨s, hrun, hrole, howner, hne⟩ := h
  exact ⟨hin, s, hrun, fun hmirrored ↦ hne (hmirrored user id hrole howner)⟩

/-- Somebody runs into the cell that cannot be walked on: if its client takes the `tmpId` of the
answer by its name, somebody who has got ready twice, and so is in view of itself; if it takes what
has the number of a `tmpId`, which is the error code, somebody who has the player `0` in view. -/
theorem failed_move_deletes :
    Differs (·.tmpid)
      [.enterGame 7 ⟨1⟩, .clientReady 7, .clientReady 7, .move 7 { curx := 2, cury := 1 }] ∧
    Differs (·.errorcode.toInt64)
      [.enterGame 7 ⟨1⟩, .enterGame 9 ⟨3⟩, .clientReady 7, .clientReady 9,
        .move 7 { curx := 2, cury := 1 }] := by
  exact ⟨differs_of_ne 7 1 (by decide +kernel) (by decide +kernel),
    differs_of_ne 7 1 (by decide +kernel) (by decide +kernel)⟩

end Mirroring

end QCLib
