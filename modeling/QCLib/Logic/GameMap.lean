import QCLib.Aoi.TowerAoi

/-!
# Game maps

`GameMap` of `define_game_map.h` and `MapDataManager` of `data_cache.cpp`: a grid of cells with
flags, and the area-of-interest manager of the map. As everywhere, `none` is undefined behaviour,
here an access outside `m_map_grid_info`, which is a null pointer when the map is too small to get a
grid.

There is one map, as `TestTnit` makes it, of any size. The cells are read through `GetGridInfo`,
which returns a flag and leaves the caller's variable alone when it fails; `IsGridCanWalk` looks at
the variable only.
-/

open CSemantics

namespace QCLib

/-- `MapGrid`, the flags of a cell. -/
structure MapGrid where
  chFlag : UInt16 := 0
  deriving DecidableEq, Repr

namespace MapGrid

/-- `bitCanWalk`, where `0` means that the cell can be walked on. -/
def bitCanWalk (f : MapGrid) : UInt16 := f.chFlag &&& 1

end MapGrid

/-- `GameMap`: a map with its cells and its towers. The cells may not have been loaded. -/
structure GameMap where
  mapId : MapId
  mapWidth : Int
  mapHeight : Int
  mapGridInfo : Option (List MapGrid)
  toweraoi : TowerAoi
  deriving DecidableEq

namespace GameMap

/-- `InitMapGrids`: the grid of a map with the given sizes, if it gets one. -/
def initMapGrids (mapWidth mapHeight : Int) : Option (Option (List MapGrid)) :=
  if mapWidth > 1 ∧ mapHeight > 1 then do
    let ncellsize ← int32 (mapWidth * mapHeight)
    return some (List.replicate ncellsize.toNat {})
  else
    return none

/-- `TestTnit`, with its two literals `100` and `100` as parameters. -/
def testTnit (mapWidth mapHeight : Int) : Option GameMap := do
  let mapGridInfo ← initMapGrids mapWidth mapHeight
  let toweraoi ← TowerAoi.new mapWidth mapHeight 5 5 20 20 1
  return { mapId := 1, mapWidth, mapHeight, mapGridInfo, toweraoi }

/-- The same map with other flags in its cells. -/
def withGrid (m : GameMap) (cells : List MapGrid) : GameMap := { m with mapGridInfo := some cells }

/-- `GetGridInfo`: whether the point passed the bounds test, and the cell written to `Grid`, which
keeps its contents when it did not. -/
def getGridInfo (m : GameMap) (point : Point) (grid : MapGrid) : Option (Bool × MapGrid) :=
  if point.x.toInt < m.mapWidth ∧ point.y.toInt < m.mapHeight then do
    let cells ← m.mapGridInfo
    let cell ← vecAt cells (point.y.toInt * m.mapWidth + point.x.toInt)
    return (true, cell)
  else
    return (false, grid)

/-- Look a map up in `m_game_map_hash`, of which `m` is the only entry. -/
def find? (m : GameMap) (mapid : MapId) : Option GameMap := if mapid = m.mapId then some m else none

/-- `MapDataManager::IsGridCanWalk`: the flag of the cell is not set. A cell outside the map is not
looked up, and has no flag. -/
def isGridCanWalk (m : GameMap) (mapid : MapId) (point : Point) : Option Bool :=
  match m.find? mapid with
  | some map => do
    let (_, grid) ← map.getGridInfo point {}
    return grid.bitCanWalk = 0
  | none => return false

/-- `MapDataManager::GetMapTowerAoi`, which falls off its end when there is no such map. -/
def getMapTowerAoi (m : GameMap) (mapid : MapId) : Option TowerAoi :=
  (m.find? mapid).map (·.toweraoi)

end GameMap

end QCLib
