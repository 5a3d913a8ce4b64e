import QCLib.Aoi.Tower
import QCLib.Foundations.CSemantics

/-!
# The tower area-of-interest manager

`TowerAoi` as `tower_aoi.cpp` computes it. Every public call first turns a cell into its tower and
then reads or writes the towers of a window around it; a call answers with sets of ids to notify.

The output sets are passed by reference and only ever inserted into, so each function takes their
initial contents and returns the final ones. `none` is undefined behaviour: an access outside
`m_towers`, a `!=` loop that starts above its bound, or a signed overflow in the constructor.

What is kept of the source: its own names for the functions and their arguments, the order of the
updates within a call, the 16-bit coordinates of `Point` with their truncation at each store, and
the arithmetic in `int32_t` of the constructor. The two loops of an area run from `x` and `y` to
their ends with `!=`, so they are `neLoops` and not ranges.
-/

open CSemantics

namespace QCLib

/-- The sizes a `TowerAoi` is built with, and the ones `InitTowers` derives from them. -/
structure TowerInfo where
  /-- The map, in cells. -/
  weight : Int
  hight : Int
  /-- How far a player sees, in cells. -/
  viewWeight : Int
  viewHight : Int
  /-- How far a player sees, in towers. -/
  towerViewWeight : Int
  towerViewHight : Int
  /-- The map, in towers. -/
  towerXN : Int
  towerYN : Int
  /-- A tower, in cells. -/
  towerWeight : Int
  towerHight : Int
  mapid : MapId
  deriving DecidableEq, Repr

namespace TowerInfo

variable (g : TowerInfo)

/-- `TowerAoi::TowerId`. The row stride is the *number of rows*. -/
def towerId (x y : Int) : Int := y * g.towerYN + x

/-- `TowerAoi::CellToTower`: the tower of a cell, narrowed to the 16 bits of a coordinate. -/
def cellToTower (p : Point) : Point :=
  Point.mk32 (p.x.toInt.tdiv g.towerWeight) (p.y.toInt.tdiv g.towerHight)

/-- `CHECKMIN(v)`. -/
def checkMin (v : Coordinate) : Coordinate := if v < 0 then 0 else v

/-- `CHECKMAX(v, m)`: the comparison is in `int32_t`, the store truncates. -/
def checkMax (v : Coordinate) (m : Int) : Coordinate := if m < v.toInt then Int16.ofInt m else v

/-- `TowerAoi::ViewTowers`: the window of towers around the tower `p`. -/
def viewTowers (p : Point) : Area where
  leftUp :=
    { x := checkMin (Int16.ofInt (p.x.toInt - g.towerViewWeight))
      y := checkMin (Int16.ofInt (p.y.toInt - g.towerViewHight)) }
  rightDown :=
    { x := checkMax (Int16.ofInt (p.x.toInt + g.towerViewWeight + 1)) g.towerXN
      y := checkMax (Int16.ofInt (p.y.toInt + g.towerViewHight + 1)) g.towerYN }

end TowerInfo

/-- The towers that two nested loops over an area visit, row by row. -/
def Area.towers (area : Area) : Option (List (Int × Int)) :=
  neLoops area.leftUp.x.toInt area.rightDown.x.toInt area.leftUp.y.toInt area.rightDown.y.toInt

/-- The manager: its sizes and `m_towers`. -/
structure TowerAoi extends TowerInfo where
  towers : List Tower
  deriving DecidableEq

/-- What `AddOrDeleteWatcher` is asked to do with the id. -/
inductive TowerOperator where
  | none
  | add
  | del
  | update
  deriving DecidableEq, Repr

/-- The six output sets of `MoveWatcher`. -/
structure MoveSets where
  winsert : ObjectSet := ∅
  wsame : ObjectSet := ∅
  wremove : ObjectSet := ∅
  addobjs : ObjectSet := ∅
  sameobjs : ObjectSet := ∅
  rmobjs : ObjectSet := ∅
  deriving DecidableEq

namespace TowerAoi

/-! ### Construction -/

/-- `(v + t - 1) / t`, how many towers of size `t` cover `v` cells. -/
def towerCount (v t : Int) : Option Int := do
  let sum ← int32 (v + t)
  let top ← int32 (sum - 1)
  div32 top t

/-- Update the tower `(x, y)` in place, where its index lies in the vector. -/
def modifyTower (a : TowerAoi) (t : Int × Int) (f : Tower → Tower) : Option TowerAoi :=
  (vecModify a.towers (a.towerId t.1 t.2) f).map fun towers ↦ { a with towers }

/-- Read the tower `(x, y)`, where its index lies in the vector. -/
def towerAt (a : TowerAoi) (t : Int × Int) : Option Tower :=
  vecAt a.towers (a.towerId t.1 t.2)

/-- The initialisation loop of `TowerAoi::InitTowers`. -/
def initTowers (a : TowerAoi) : Option TowerAoi := do
  let ts ← neLoops 0 a.towerXN 0 a.towerYN
  ts.foldlM (fun a t ↦ a.modifyTower t fun tower ↦
    tower.init (Point.mk32 (t.1 * a.towerWeight) (t.2 * a.towerHight)) (a.towerId t.1 t.2)) a

/-- The constructor `TowerAoi(w, h, tw, th, vw, vh, id)`. -/
def new (w h tw th vw vh : Int) (id : MapId) : Option TowerAoi := do
  let towerXN ← towerCount w tw
  let towerYN ← towerCount h th
  let towerViewWeight ← towerCount vw tw
  let towerViewHight ← towerCount vh th
  let size ← int32 (towerXN * towerYN)
  -- A negative size converts to a huge `size_t`, which `resize` rejects.
  let towers ← if size < 0 then none else some (List.replicate size.toNat default)
  initTowers
    { weight := w, hight := h, viewWeight := vw, viewHight := vh, towerViewWeight, towerViewHight,
      towerXN, towerYN, towerWeight := tw, towerHight := th, mapid := id, towers }

/-! ### The three-way difference -/

/-- The three output sets of `MoveOject`. -/
structure DiffSets where
  insert : ObjectSet := ∅
  same : ObjectSet := ∅
  remove : ObjectSet := ∅
  deriving DecidableEq

/-- The loop of `TowerAoi::MoveOject` over the two ascending id sequences, with the two range
insertions that follow it. -/
def moveLoop (oldt newt : List ObjectId) (out : DiffSets) : DiffSets :=
  match oldt, newt with
  | o :: os, n :: ns =>
    if o > n then moveLoop (o :: os) ns { out with insert := out.insert.insert n }
    else if o < n then moveLoop os (n :: ns) { out with remove := out.remove.insert o }
    else moveLoop os ns { out with same := out.same.insert o }
  | os, [] => { out with remove := out.remove.insertMany os }
  | [], ns => { out with insert := out.insert.insertMany ns }
termination_by oldt.length + newt.length

/-- `TowerAoi::MoveOject`, under the name that the source gives it. The two sets are walked in their
order, and the ids are put into the output sets that the caller passes. -/
def moveOject (oldt newt : ObjectSet) (out : DiffSets) : DiffSets :=
  moveLoop oldt.toList newt.toList out

/-! ### Watchers and objects -/

/-- One turn of the loop below: collect the objects of a tower and update its watchers by `f`. -/
def visitTower (f : ObjectSet → ObjectSet) (s : TowerAoi × ObjectSet) (t : Int × Int) :
    Option (TowerAoi × ObjectSet) := do
  let tower ← s.1.towerAt t
  let a ← s.1.modifyTower t fun tower ↦ { tower with watchers := f tower.watchers }
  return (a, s.2 ∪ tower.objs)

/-- The loop that all watcher operations run over a window of towers. -/
def areaLoop (a : TowerAoi) (area : Area) (f : ObjectSet → ObjectSet) (objs : ObjectSet) :
    Option (TowerAoi × ObjectSet) := do
  let ts ← area.towers
  ts.foldlM (visitTower f) (a, objs)

/-- Erase an id from the objects of a tower. -/
def eraseObj (a : TowerAoi) (t : Int × Int) (objid : ObjectId) : Option TowerAoi :=
  a.modifyTower t fun tower ↦ { tower with objs := tower.objs.erase objid }

/-- Insert an id into the objects of a tower. -/
def insertObj (a : TowerAoi) (t : Int × Int) (objid : ObjectId) : Option TowerAoi :=
  a.modifyTower t fun tower ↦ { tower with objs := tower.objs.insert objid }

/-- `TowerAoi::AddOrDeleteWatcher`. The watchers of the own tower are returned as they are before
the loop; the loop enters or erases the id on every tower of the view, and collects the objects
there. -/
def addOrDeleteWatcher (a : TowerAoi) (objid : ObjectId) (p : Point) (watcher objs : ObjectSet)
    (optType : TowerOperator) : Option (TowerAoi × ObjectSet × ObjectSet) := do
  let tp := a.cellToTower p
  let tower ← a.towerAt tp.toPair
  let watcher := watcher ∪ tower.watchers
  let a₁ ← if optType = .del then a.eraseObj tp.toPair objid else some a
  let watcher := if optType = .del then watcher.erase objid else watcher
  let (a₂, objs) ← a₁.areaLoop (a.viewTowers tp) (fun watchers ↦
    match optType with
    | .add => watchers.insert objid
    | .del => watchers.erase objid
    | _ => watchers) objs
  let a₃ ← if optType = .add then a₂.insertObj tp.toPair objid else some a₂
  return (a₃, watcher, objs)

/-- `TowerAoi::AddWatcher`: enter the map as somebody who looks. -/
def addWatcher (a : TowerAoi) (objid : ObjectId) (p : Point) (watcher objs : ObjectSet) :
    Option (TowerAoi × ObjectSet × ObjectSet) :=
  a.addOrDeleteWatcher objid p watcher objs .add

/-- `TowerAoi::DelWatcher`: leave the map. -/
def delWatcher (a : TowerAoi) (objid : ObjectId) (p : Point) (watcher objs : ObjectSet) :
    Option (TowerAoi × ObjectSet × ObjectSet) :=
  a.addOrDeleteWatcher objid p watcher objs .del

/-- `TowerAoi::AddOrDeleteObject`. An object stands on one tower and watches none; the watchers of
that tower are returned. -/
def addOrDeleteObject (a : TowerAoi) (objid : ObjectId) (p : Point) (watcher : ObjectSet)
    (optType : TowerOperator) : Option (TowerAoi × ObjectSet) := do
  let tp := a.cellToTower p
  let tower ← a.towerAt tp.toPair
  let a₁ ← match optType with
    | .add => a.insertObj tp.toPair objid
    | .del => a.eraseObj tp.toPair objid
    | _ => some a
  return (a₁, watcher ∪ tower.watchers)

/-- `TowerAoi::AddObject`: enter the map as something that is only seen. -/
def addObject (a : TowerAoi) (objid : ObjectId) (p : Point) (watcher : ObjectSet) :
    Option (TowerAoi × ObjectSet) :=
  a.addOrDeleteObject objid p watcher .add

/-- `TowerAoi::DelObject`: take such an object off the map. -/
def delObject (a : TowerAoi) (objid : ObjectId) (p : Point) (watcher : ObjectSet) :
    Option (TowerAoi × ObjectSet) :=
  a.addOrDeleteObject objid p watcher .del

/-- `TowerAoi::MoveWatcher`. The id leaves the old window before the two watcher sets are compared
and enters the new one after, so it appears in neither difference; it joins `wsame` by hand. -/
def moveWatcher (a : TowerAoi) (objid : ObjectId) (op np : Point) (out : MoveSets) :
    Option (TowerAoi × MoveSets) := do
  let oldt := a.cellToTower op
  let newt := a.cellToTower np
  if oldt = newt then
    let tower ← a.towerAt oldt.toPair
    return (a, { out with wsame := out.wsame ∪ tower.watchers })
  else
    let a₁ ← a.eraseObj oldt.toPair objid
    let (a₂, oldobjs) ← a₁.areaLoop (a.viewTowers oldt) (·.erase objid) ∅
    let oldtower ← a₂.towerAt oldt.toPair
    let newtower ← a₂.towerAt newt.toPair
    let w := moveOject oldtower.watchers newtower.watchers ⟨out.winsert, out.wsame, out.wremove⟩
    let (a₃, newobjs) ← a₂.areaLoop (a.viewTowers newt) (·.insert objid) ∅
    let o := moveOject oldobjs newobjs ⟨out.addobjs, out.sameobjs, out.rmobjs⟩
    let a₄ ← a₃.insertObj newt.toPair objid
    return (a₄, ⟨w.insert, w.same.insert objid, w.remove, o.insert, o.same, o.remove⟩)

/-- `TowerAoi::MoveObject`, with its return code: `1` when the object stays in its tower, and then
nothing is reported. Every other call always returns `0`. -/
def moveObject (a : TowerAoi) (objid : ObjectId) (op np : Point) (out : DiffSets) :
    Option (Int × TowerAoi × DiffSets) := do
  let oldt := a.cellToTower op
  let newt := a.cellToTower np
  if oldt = newt then
    return (1, a, out)
  else
    let a₁ ← a.eraseObj oldt.toPair objid
    let oldtower ← a₁.towerAt oldt.toPair
    let newtower ← a₁.towerAt newt.toPair
    let a₂ ← a₁.insertObj newt.toPair objid
    return (0, a₂, moveOject oldtower.watchers newtower.watchers out)

end TowerAoi

end QCLib
