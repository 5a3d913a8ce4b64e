import QCLib.Foundations.StepRun
import QCLib.Logic.Placement

/-!
# When moves stay inside the map

A move should either change nothing or take the player to the cell it asked for, inside the map and
walkable (`MoveFine`). Nothing checks this: `GetGridInfo` tests two of the four bounds,
`IsGridCanWalk` ignores the outcome and takes the cell it did not get for a walkable one, and the
request has been truncated to 16 bits before. `MoveChecked` is what a request has to satisfy
instead, and it is exactly what is needed, on any map.

The four ways that a move can go are told apart by two questions, whether the user has a cached
player and whether the cell passes `IsGridCanWalk`. Only one of them moves anybody, and there it
depends on the flags of the cell that is asked for, on the bounds that are not tested, and on
whether the player stands on that cell already. `MoveChecked` puts this together, and
`Located.moveChecked_iff` is an equivalence for one move; the runs follow with `guarded_iff`.
-/

open CSemantics StepRun

namespace QCLib

namespace LogicServer

variable {σ : Type} {nosql : NoSqlDBCache σ} {g : TowerInfo} {s s' : LogicServer σ}
  {me : ObjectId} {user : UserId} {d : PlayerMapData} {cmd : ReqMove}

/-- Where a player is, if it is in the cache. -/
def storedLocation (s : LogicServer σ) (id : ObjectId) : Option Point :=
  (s.getPlayerMapData id).map (·.location)

/-- Neither locations, nor towers, nor views differ. -/
structure Unmoved (s s' : LogicServer σ) : Prop where
  location : ∀ id, s'.storedLocation id = s.storedLocation id
  toweraoi : s'.map.toweraoi = s.map.toweraoi
  viewSet : ∀ id, s'.viewSet id = s.viewSet id

/-- The player stands where it asked to be, on a walkable cell of the map. -/
structure MovedTo (s s' : LogicServer σ) (me : ObjectId) (x y : Int) : Prop where
  location : ∃ p, s'.storedLocation me = some p ∧ p.x.toInt = x ∧ p.y.toInt = y
  inside : (0 ≤ x ∧ x < s.map.mapWidth) ∧ 0 ≤ y ∧ y < s.map.mapHeight
  walkable : ∃ cells cell, s.map.mapGridInfo = some cells ∧
    vecAt cells (y * s.map.mapWidth + x) = some cell ∧ cell.bitCanWalk = 0

/-- What is expected of a move: that it is defined, so that all its accesses are in range, and that
it moves the player to where it asked to be, or nothing at all. -/
def MoveFine (s : LogicServer σ) : Event → Prop
  | .move user cmd => ∃ s', s.playerMove user (s.getObjectId user) cmd = some s' ∧
      (Unmoved s s' ∨ MovedTo s s' (s.getObjectId user) cmd.curx.toInt cmd.cury.toInt)
  | _ => True

/-- What a request for a cell has to satisfy: it comes from nobody, or `IsGridCanWalk` reads the
cell and rejects it, or the player is there already, or the cell is in the map and was not
truncated. -/
def MoveChecked (s : LogicServer σ) : Event → Prop
  | .move user cmd => ∀ d ∈ s.getPlayerMapData (s.getObjectId user),
      s.map.isGridCanWalk d.mapId cmd.dstPoint = some false ∨ cmd.dstPoint = d.location ∨
        (0 ≤ cmd.curx.toInt ∧ cmd.curx.toInt < s.map.mapWidth ∧ 0 ≤ cmd.cury.toInt ∧
          cmd.cury.toInt < s.map.mapHeight) ∧
        cmd.curx.toInt < 2 ^ 15 ∧ cmd.cury.toInt < 2 ^ 15
  | _ => True

instance (s : LogicServer σ) : ∀ e : Event, Decidable (s.MoveChecked e)
  | .createRole .. => isTrue trivial
  | .enterGame .. => isTrue trivial
  | .clientReady _ => isTrue trivial
  | .move user cmd =>
    inferInstanceAs (Decidable (∀ d ∈ s.getPlayerMapData (s.getObjectId user),
      s.map.isGridCanWalk d.mapId cmd.dstPoint = some false ∨ cmd.dstPoint = d.location ∨
        (0 ≤ cmd.curx.toInt ∧ cmd.curx.toInt < s.map.mapWidth ∧ 0 ≤ cmd.cury.toInt ∧
          cmd.cury.toInt < s.map.mapHeight) ∧
        cmd.curx.toInt < 2 ^ 15 ∧ cmd.cury.toInt < 2 ^ 15))
  | .logout _ => isTrue trivial

/-! ### The four ways of a move -/

theorem moveFine_of_sent {body : Body} (heq : s.playerMove user (s.getObjectId user) cmd =
    some (s.sendMsgToPlayer user .delobj body)) : s.MoveFine (.move user cmd) :=
  ⟨_, heq, Or.inl ⟨fun _ ↦ rfl, rfl, fun _ ↦ rfl⟩⟩

/-- A move on the spot changes no location, so it leaves the player in bounds. -/
theorem Located.moveFine_of_eq (hr : g.Regular) (hs : s.Located g)
    (hme : s.getPlayerMapData (s.getObjectId user) = some d) (hspot : cmd.dstPoint = d.location) :
    s.MoveFine (.move user cmd) := by
  have hp := hs.inMap _ d hme
  rcases hs.playerMove_cases (hspot ▸ hp) user (s.getObjectId user) with
    ⟨body, heq⟩ | ⟨d', hd', hwalk⟩
  · exact moveFine_of_sent heq
  · obtain rfl := Option.some.inj (hme.symm.trans hd')
    have hinfo := hs.info
    subst hinfo
    have htower : s.map.toweraoi.towerOf d.location = s.map.toweraoi.towerOf cmd.dstPoint := by
      rw [hspot]
    have heq : s.playerMove user (s.getObjectId user) cmd = _ :=
      playerMove_of_walks hs.ready hme (hs.mapId _ d hme) hwalk
    rw [TowerAoi.moveWatcher_trace_of_eq hr hs.indexed hp htower] at heq
    obtain ⟨hmap, -, hdata⟩ := moveViews_mapData (s := s.setTowerAoi s.map.toweraoi) hs.defult hme
      user cmd { wsame := ∅ ∪ (s.map.toweraoi.tower (s.map.toweraoi.towerOf d.location)).watchers }
      cmd.dstPoint
    refine ⟨_, heq, Or.inl ⟨fun id ↦ ?_, congrArg GameMap.toweraoi hmap, fun id ↦ ?_⟩⟩
    · rw [storedLocation, hdata]
      split_ifs with hid
      · rw [hid, storedLocation, hme]
        exact congrArg some hspot
      · rfl
    · exact moveViews_viewSet_of_empty (s := s.setTowerAoi s.map.toweraoi) hme cmd.dstPoint rfl rfl

/-- A move to a cell of the map that was not truncated goes there, or nowhere. -/
theorem Located.moveFine_of_inMap (hr : g.Regular) (hs : s.Located g)
    (hp : g.InMap cmd.dstPoint) (hx : cmd.dstPoint.x.toInt = cmd.curx.toInt)
    (hy : cmd.dstPoint.y.toInt = cmd.cury.toInt) : s.MoveFine (.move user cmd) := by
  rcases hs.playerMove_cases hp user (s.getObjectId user) with ⟨body, heq⟩ | ⟨d, hme, hwalk⟩
  · exact moveFine_of_sent heq
  · obtain ⟨s', heq, -⟩ := exists_playerMove_of_walks hr hs hme hwalk hp user
    have heq' := heq
    rw [playerMove_of_walks hs.ready hme (hs.mapId _ d hme) hwalk, Option.map_eq_some_iff] at heq'
    obtain ⟨⟨toweraoi, out⟩, -, rfl⟩ := heq'
    obtain ⟨-, -, hdata⟩ := moveViews_mapData (s := s.setTowerAoi toweraoi) hs.defult hme user cmd
      out cmd.dstPoint
    refine ⟨_, heq, Or.inr ⟨⟨cmd.dstPoint, ?_, hx, hy⟩, ?_, ?_⟩⟩
    · rw [storedLocation, hdata, if_pos rfl]
      rfl
    · rw [← hx, ← hy, hs.ready.mapWidth, hs.ready.mapHeight]
      exact hp
    · rw [← hx, ← hy]
      exact hs.ready.walkable hp hwalk

/-- Any other move leads somewhere else, or has no defined result. -/
theorem Located.not_moveFine (hs : s.Located g)
    (hme : s.getPlayerMapData (s.getObjectId user) = some d)
    (hwalk : s.map.isGridCanWalk 1 cmd.dstPoint ≠ some false) (hspot : cmd.dstPoint ≠ d.location)
    (hout : ¬ (g.InMap cmd.dstPoint ∧ cmd.dstPoint.x.toInt = cmd.curx.toInt ∧
      cmd.dstPoint.y.toInt = cmd.cury.toInt)) : ¬ s.MoveFine (.move user cmd) := by
  intro ⟨s', heq, hfine⟩
  cases hread : s.map.isGridCanWalk 1 cmd.dstPoint with
  | none =>
    -- The grid was read out of range.
    simp only [LogicServer.playerMove, hme, Option.getD_some, hs.mapId _ d hme, hread,
      Option.bind_eq_bind, Option.bind_none, reduceCtorEq] at heq
  | some walk =>
    have htrue : walk = true := by
      cases walk with
      | false => exact absurd hread hwalk
      | true => rfl
    rw [playerMove_of_walks hs.ready hme (hs.mapId _ d hme) (htrue ▸ hread),
      Option.map_eq_some_iff] at heq
    obtain ⟨⟨toweraoi, out⟩, -, rfl⟩ := heq
    have hlocation := (moveViews_mapData (s := s.setTowerAoi toweraoi) hs.defult hme user cmd
      out cmd.dstPoint).2.2 (s.getObjectId user)
    rw [if_pos rfl] at hlocation
    rcases hfine with hun | ⟨⟨p, hp, hx, hy⟩, hin, -⟩
    · have hsame := hun.location (s.getObjectId user)
      rw [storedLocation, storedLocation, hlocation, hme] at hsame
      exact hspot (Option.some.inj hsame)
    · rw [storedLocation, hlocation] at hp
      obtain rfl := Option.some.inj hp
      refine hout ⟨?_, hx, hy⟩
      rw [← hx, ← hy, hs.ready.mapWidth, hs.ready.mapHeight] at hin
      exact hin

/-- A coordinate keeps its value exactly when it fits. -/
theorem toInt_toInt16 {c : Int32} (h : 0 ≤ c.toInt) :
    c.toInt16.toInt = c.toInt ↔ c.toInt < 2 ^ 15 := by
  rw [Int32.toInt_toInt16]
  constructor
  · intro h'
    have := Int.bmod_lt (x := c.toInt) (m := 2 ^ 16) (by decide)
    omega
  · intro h'
    exact Int.bmod_eq_of_le (by omega) (by omega)

/-- A request that is in order is refused, or moves the player to the cell that was asked for. -/
theorem Located.moveChecked_cases (hs : s.Located g) (hchecked : s.MoveChecked (.move user cmd)) :
    (∃ body, s.playerMove user (s.getObjectId user) cmd =
      some (s.sendMsgToPlayer user .delobj body)) ∨
    (∃ d, s.getPlayerMapData (s.getObjectId user) = some d ∧ cmd.dstPoint = d.location) ∨
    (g.InMap cmd.dstPoint ∧ cmd.dstPoint.x.toInt = cmd.curx.toInt ∧
      cmd.dstPoint.y.toInt = cmd.cury.toInt) := by
  cases hme : s.getPlayerMapData (s.getObjectId user) with
  | none => exact Or.inl (playerMove_of_stays hs.ready user (Or.inl hme))
  | some d =>
    rcases hchecked d hme with hwalk | hspot | ⟨⟨hx₀, hx, hy₀, hy⟩, hxfits, hyfits⟩
    · have hmap := hs.mapId _ d hme
      exact Or.inl (playerMove_of_stays hs.ready user (Or.inr ⟨d, hme, hmap, hmap ▸ hwalk⟩))
    · exact Or.inr (Or.inl ⟨d, rfl, hspot⟩)
    · have hx' : cmd.dstPoint.x.toInt = cmd.curx.toInt := (toInt_toInt16 hx₀).2 hxfits
      have hy' : cmd.dstPoint.y.toInt = cmd.cury.toInt := (toInt_toInt16 hy₀).2 hyfits
      refine Or.inr (Or.inr ⟨?_, hx', hy'⟩)
      rw [hs.ready.mapWidth] at hx
      rw [hs.ready.mapHeight] at hy
      rw [TowerInfo.InMap, hx', hy']
      exact ⟨⟨hx₀, hx⟩, hy₀, hy⟩

/-- **A move is fine exactly when its request is in order.** -/
theorem Located.moveChecked_iff (hr : g.Regular) (hs : s.Located g) (event : Event) :
    s.MoveChecked event ↔ s.MoveFine event := by
  cases event with
  | createRole | enterGame | clientReady | logout => exact Iff.rfl
  | move user cmd =>
    constructor
    · intro hchecked
      rcases hs.moveChecked_cases hchecked with ⟨body, heq⟩ | ⟨d, hme, hspot⟩ | ⟨hp, hx, hy⟩
      · exact moveFine_of_sent heq
      · exact hs.moveFine_of_eq hr hme hspot
      · exact hs.moveFine_of_inMap hr hp hx hy
    · intro hfine d hme
      by_contra hnot
      obtain ⟨hwalk, hspot, hout⟩ := by simpa only [not_or] using hnot
      rw [hs.mapId _ d hme] at hwalk
      refine hs.not_moveFine hme hwalk hspot (fun ⟨hin, hx, hy⟩ ↦ hout ?_) hfine
      rw [TowerInfo.InMap, hx, hy] at hin
      obtain ⟨⟨hx₀, hx'⟩, hy₀, hy'⟩ := hin
      rw [hs.ready.mapWidth, hs.ready.mapHeight]
      exact ⟨⟨hx₀, hx', hy₀, hy'⟩, (toInt_toInt16 hx₀).1 hx, (toInt_toInt16 hy₀).1 hy⟩

/-- A request that is in order leaves everybody inside the map. -/
theorem Located.exists_playerMove_of_checked (hr : g.Regular) (hs : s.Located g)
    (hchecked : s.MoveChecked (.move user cmd)) :
    ∃ s', s.playerMove user (s.getObjectId user) cmd = some s' ∧ s'.Located g := by
  rcases hs.moveChecked_cases hchecked with ⟨body, heq⟩ | ⟨d, hme, hspot⟩ | ⟨hp, -, -⟩
  · exact ⟨_, heq, hs.of_frame (.refl _) (frame_sendMsgToPlayer ..)⟩
  · exact hs.exists_playerMove hr (hspot ▸ hs.inMap _ d hme) user _
  · exact hs.exists_playerMove hr hp user _

/-! ### Runs -/

/-- **Moves inside the map.** On a map of any size, with any flags in its cells, and whatever any
number of users send: all moves of a run are fine if and only if all their requests are in order.
Such a run is defined, and where it ends the same is true of every request that may come next. -/
theorem moveBounds {w h : Int} {m : GameMap} {cells : List MapGrid}
    (hm : GameMap.testTnit w h = some m) (hw : 1 < w) (hh : 1 < h)
    (hcells : (cells.length : Int) = w * h) (nosql : NoSqlDBCache σ) (gCount : UInt64) (db : σ)
    (events : List Event) :
    (Guarded (step nosql) MoveFine (start (m.withGrid cells) gCount db) events ↔
        Guarded (step nosql) MoveChecked (start (m.withGrid cells) gCount db) events) ∧
      (Guarded (step nosql) MoveChecked (start (m.withGrid cells) gCount db) events →
        ∃ s, run (step nosql) (start (m.withGrid cells) gCount db) events = some s ∧
          ∀ event, s.MoveFine event ↔ s.MoveChecked event) := by
  have hr := testTnit_regular hm
  have hstart := start_located hm hcells gCount db
  have hstep : ∀ (s : LogicServer σ) (e : Event), s.Located m.toweraoi.toTowerInfo →
      s.MoveChecked e → ∃ s', s.step nosql e = some s' ∧ s'.Located m.toweraoi.toTowerInfo := by
    intro s e hs hchecked
    refine hs.exists_step hr (testTnit_hasGrid hm hw hh) fun user cmd heq ↦ ?_
    subst heq
    exact hs.exists_playerMove_of_checked hr hchecked
  constructor
  · refine (guarded_iff (fun s e hs _ ↦ hs.moveChecked_iff hr e) ?_ hstart
      (guarded_of_forall (p := fun _ ↦ True) fun _ _ ↦ trivial)).symm
    intro s e s' hs _ hchecked heq
    obtain ⟨s'', heq', hs'⟩ := hstep s e hs hchecked
    obtain rfl := Option.some.inj (heq.symm.trans heq')
    exact hs'
  · intro hok
    obtain ⟨s, hrun, hs⟩ := exists_run hstep hstart hok
    exact ⟨s, hrun, fun event ↦ (hs.moveChecked_iff hr event).symm⟩

/-- Two users walk about; one of them asks for the cell where it stands. -/
def checkedEvents : List Event :=
  [.createRole 7 ⟨"ann", 1, 1⟩, .createRole 8 ⟨"bob", 2, 1⟩, .clientReady 7,
    .move 7 { curx := 29, cury := 0 }, .move 8 { curx := 1, cury := 1 }, .move 9 { curx := -1 },
    .clientReady 8, .move 8 { curx := 17, cury := 29 }, .logout 7]

/-- A run in which every move is checked, and the moves of which are all fine. -/
theorem moveBounds_checkedEvents :
    Guarded (step .inMemory) MoveFine sampleServer checkedEvents ∧
      ∃ s, run (step .inMemory) sampleServer checkedEvents = some s ∧
        ∀ event, s.MoveFine event ↔ s.MoveChecked event := by
  have hok : Guarded (step .inMemory) MoveChecked sampleServer checkedEvents := by decide +kernel
  have hcells : ((List.replicate 900 ({} : MapGrid)).length : Int) = 30 * 30 := by decide +kernel
  obtain ⟨hiff, hrun⟩ := moveBounds testTnit_sampleMap (by decide) (by decide) hcells
    .inMemory 0 ([], []) checkedEvents
  exact ⟨hiff.2 hok, hrun hok⟩

/-- Requests for a cell beyond the right edge of the sample map, for one to the left of it whose
index is that of the last cell of the row before, and for one that truncation brings back inside. -/
def outsideRequests : List ReqMove :=
  [{ curx := 30, cury := 1 }, { curx := -1, cury := 1 }, { curx := 65541, cury := 5 }]

/-- None of them is fine, even for a player that has just joined. -/
theorem moveBounds_needs_checked :
    ∃ s, run (step .inMemory) sampleServer [.createRole 7 ⟨"ann", 1, 1⟩] = some s ∧
      ∀ cmd ∈ outsideRequests, ¬ s.MoveFine (.move 7 cmd) := by
  have hcells : ((List.replicate 900 ({} : MapGrid)).length : Int) = 30 * 30 := by decide +kernel
  have hstart : sampleServer.Located sampleMap.toweraoi.toTowerInfo :=
    start_located testTnit_sampleMap hcells 0 ([], [])
  have hgrid := testTnit_hasGrid testTnit_sampleMap (by decide) (by decide)
  have hs : (sampleServer.createPlayer .inMemory 7 ⟨"ann", 1, 1⟩).Located
      sampleMap.toweraoi.toTowerInfo := (createPlayer_joined hstart.defult _ _).located hgrid hstart
  have hchecked : ∀ cmd ∈ outsideRequests,
      ¬ (sampleServer.createPlayer .inMemory 7 ⟨"ann", 1, 1⟩).MoveChecked (.move 7 cmd) := by
    decide +kernel
  exact ⟨_, rfl, fun cmd hcmd hfine ↦
    hchecked cmd hcmd ((hs.moveChecked_iff (testTnit_regular testTnit_sampleMap) _).2 hfine)⟩

end LogicServer

end QCLib
