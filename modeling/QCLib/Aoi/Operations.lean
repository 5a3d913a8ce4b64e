import QCLib.Aoi.Board

/-!
# The six operations

One specification for each public call of `TowerAoi`. They come in two groups.

* **Traces** (`addWatcher_trace`, …): on regular sizes, and with a place for every tower of the
  grid, a call on cells of the map stays inside `m_towers`, runs through the stated intermediate
  stores and keeps their shape. Nothing is assumed of the contents of the towers or of how they are
  stored.
* **Effects** (`addWatcher_spec`, …): when moreover distinct towers are stored apart and the towers
  show a board, they show the updated board afterwards, and each output set has gained exactly the
  corresponding difference.

A trace says which stores a call runs through; an effect reads the trace with the board in mind. The
split lets both be used apart: the comparison of a move with leaving and entering again needs the
traces only, and holds on grids where the effects do not (`Aoi.Reentry`).

Output sets are passed in by the caller and only grow. The specifications therefore speak of what is
*gained* (`MoveSets.Reports`, `DiffSets.Reports`), and a caller who passes empty sets reads the
answer off directly.
-/

open CSemantics Interest

namespace QCLib

namespace TowerAoi

variable {g : TowerInfo} {a a' a₁ a₂ a₃ a₄ : TowerAoi} {B : Board ObjectId (Int × Int)}
  {id : ObjectId} {p op np : Point} {watcher objs : ObjectSet}

/-! ### Traces -/

theorem exists_eraseObj (hr : a.Regular) (ha : a.Indexed) (hp : a.InMap p) (id : ObjectId) :
    ∃ a', a.eraseObj (a.towerOf p) id = some a' ∧ SameShape a a' := by
  obtain ⟨a', h⟩ := exists_modifyTower ha (TowerInfo.inGrid_towerOf hr hp) fun tower ↦
    { tower with objs := tower.objs.erase id }
  exact ⟨a', h, sameShape_of_modifyTower h⟩

theorem exists_insertObj (hr : a.Regular) (ha : a.Indexed) (hp : a.InMap p) (id : ObjectId) :
    ∃ a', a.insertObj (a.towerOf p) id = some a' ∧ SameShape a a' := by
  obtain ⟨a', h⟩ := exists_modifyTower ha (TowerInfo.inGrid_towerOf hr hp) fun tower ↦
    { tower with objs := tower.objs.insert id }
  exact ⟨a', h, sameShape_of_modifyTower h⟩

/-- What a shape-preserving step leaves true for the next one. -/
theorem SameShape.regular {p : Point} (h : SameShape a a') (hr : a.Regular) (ha : a.Indexed)
    (hp : a.InMap p) : a'.Regular ∧ a'.Indexed ∧ a'.InMap p ∧ a'.towerOf p = a.towerOf p := by
  have hinfo := h.info
  exact ⟨hinfo ▸ hr, h.indexed ha, hinfo ▸ hp, by rw [hinfo]⟩

/-- The tower of a position can be read, and it is the one that the position belongs to. -/
theorem towerAt_towerOf (hr : a.Regular) (ha : a.Indexed) (hp : a.InMap p) :
    a.towerAt (a.cellToTower p).toPair = some (a.tower (a.towerOf p)) :=
  towerAt_eq ha (TowerInfo.inGrid_towerOf hr hp)

/-- A tower can still be read after steps that keep the shape. -/
theorem SameShape.towerAt_towerOf (h : SameShape a a') (hr : a.Regular) (ha : a.Indexed)
    (hp : a.InMap p) : a'.towerAt (a.cellToTower p).toPair = some (a'.tower (a.towerOf p)) := by
  obtain ⟨hr', ha', hp', ht⟩ := h.regular hr ha hp
  have := TowerAoi.towerAt_towerOf hr' ha' hp'
  rwa [h.info] at this

theorem addWatcher_eq {tower : Tower} {objs' : ObjectSet}
    (hread : a.towerAt (a.towerOf p) = some tower)
    (h₁ : a.areaLoop (a.viewTowers (a.cellToTower p)) (·.insert id) objs = some (a₁, objs'))
    (h₂ : a₁.insertObj (a.towerOf p) id = some a₂) :
    a.addWatcher id p watcher objs = some (a₂, watcher ∪ tower.watchers, objs') := by
  rw [TowerInfo.towerOf] at hread h₂
  simp only [addWatcher, addOrDeleteWatcher, hread, reduceCtorEq, if_false, if_true, h₁, h₂,
    Option.bind_eq_bind, Option.bind_some, Option.pure_def]

theorem delWatcher_eq {tower : Tower} {objs' : ObjectSet}
    (hread : a.towerAt (a.towerOf p) = some tower)
    (h₁ : a.eraseObj (a.towerOf p) id = some a₁)
    (h₂ : a₁.areaLoop (a.viewTowers (a.cellToTower p)) (·.erase id) objs = some (a₂, objs')) :
    a.delWatcher id p watcher objs = some (a₂, (watcher ∪ tower.watchers).erase id, objs') := by
  rw [TowerInfo.towerOf] at hread h₁
  simp only [delWatcher, addOrDeleteWatcher, hread, reduceCtorEq, if_false, if_true, h₁, h₂,
    Option.bind_eq_bind, Option.bind_some, Option.pure_def]

/-- `MoveWatcher` within one tower: only the watchers of that tower are returned, and the sets of
objects stay as they were passed. -/
theorem moveWatcher_eq_of_eq {tower : Tower} {out : MoveSets}
    (hread : a.towerAt (a.towerOf op) = some tower) (hsame : a.towerOf op = a.towerOf np) :
    a.moveWatcher id op np out =
      some (a, { out with wsame := out.wsame ∪ tower.watchers }) := by
  have hcell : a.cellToTower op = a.cellToTower np := Point.toPair_injective hsame
  rw [TowerInfo.towerOf] at hread
  simp only [moveWatcher, if_pos hcell, hread, Option.bind_eq_bind, Option.bind_some,
    Option.pure_def]

/-- `MoveWatcher` between two towers, from what its parts return. -/
theorem moveWatcher_eq_of_ne {oldtower newtower : Tower} {oldobjs newobjs : ObjectSet}
    {out : MoveSets} (hne : a.towerOf op ≠ a.towerOf np)
    (h₁ : a.eraseObj (a.towerOf op) id = some a₁)
    (h₂ : a₁.areaLoop (a.viewTowers (a.cellToTower op)) (·.erase id) ∅ = some (a₂, oldobjs))
    (hold : a₂.towerAt (a.towerOf op) = some oldtower)
    (hnew : a₂.towerAt (a.towerOf np) = some newtower)
    (h₃ : a₂.areaLoop (a.viewTowers (a.cellToTower np)) (·.insert id) ∅ = some (a₃, newobjs))
    (h₄ : a₃.insertObj (a.towerOf np) id = some a₄) :
    let w := moveOject oldtower.watchers newtower.watchers ⟨out.winsert, out.wsame, out.wremove⟩
    let o := moveOject oldobjs newobjs ⟨out.addobjs, out.sameobjs, out.rmobjs⟩
    a.moveWatcher id op np out =
      some (a₄, ⟨w.insert, w.same.insert id, w.remove, o.insert, o.same, o.remove⟩) := by
  have hcell : a.cellToTower op ≠ a.cellToTower np := fun h ↦ hne (congrArg Point.toPair h)
  rw [TowerInfo.towerOf] at h₁ hold hnew h₄
  simp only [moveWatcher, if_neg hcell, h₁, h₂, hold, hnew, h₃, h₄, Option.bind_eq_bind,
    Option.bind_some, Option.pure_def]

/-- `AddWatcher`: enter the window, then the tower. -/
theorem addWatcher_trace (hr : a.Regular) (ha : a.Indexed) (hp : a.InMap p) (id : ObjectId)
    (watcher objs : ObjectSet) :
    ∃ a₁ a₂ objs', a.areaLoop (a.viewTowers (a.cellToTower p)) (·.insert id) objs =
        some (a₁, objs') ∧
      a₁.insertObj (a.towerOf p) id = some a₂ ∧ SameShape a a₂ ∧
      a.addWatcher id p watcher objs =
        some (a₂, watcher ∪ (a.tower (a.towerOf p)).watchers, objs') := by
  obtain ⟨a₁, objs', h₁, hs₁⟩ := exists_areaLoop hr ha hp (.refl a) (·.insert id) objs
  obtain ⟨hr₁, ha₁, hp₁, ht₁⟩ := hs₁.regular hr ha hp
  obtain ⟨a₂, h₂, hs₂⟩ := exists_insertObj hr₁ ha₁ hp₁ id
  rw [ht₁] at h₂
  exact ⟨a₁, a₂, objs', h₁, h₂, hs₁.trans hs₂, addWatcher_eq (towerAt_towerOf hr ha hp) h₁ h₂⟩

/-- `DelWatcher`: leave the tower, then the window. -/
theorem delWatcher_trace (hr : a.Regular) (ha : a.Indexed) (hp : a.InMap p) (id : ObjectId)
    (watcher objs : ObjectSet) :
    ∃ a₁ a₂ objs', a.eraseObj (a.towerOf p) id = some a₁ ∧
      a₁.areaLoop (a.viewTowers (a.cellToTower p)) (·.erase id) objs = some (a₂, objs') ∧
      SameShape a a₂ ∧
      a.delWatcher id p watcher objs =
        some (a₂, (watcher ∪ (a.tower (a.towerOf p)).watchers).erase id, objs') := by
  obtain ⟨a₁, h₁, hs₁⟩ := exists_eraseObj hr ha hp id
  obtain ⟨a₂, objs', h₂, hs₂⟩ := exists_areaLoop hr ha hp hs₁ (·.erase id) objs
  exact ⟨a₁, a₂, objs', h₁, h₂, hs₂, delWatcher_eq (towerAt_towerOf hr ha hp) h₁ h₂⟩

/-- `MoveWatcher` inside one tower: nothing moves, and its watchers are reported as unchanged. -/
theorem moveWatcher_trace_of_eq (hr : a.Regular) (ha : a.Indexed) (ho : a.InMap op)
    (hsame : a.towerOf op = a.towerOf np) (id : ObjectId) (out : MoveSets) :
    a.moveWatcher id op np out =
      some (a, { out with wsame := out.wsame ∪ (a.tower (a.towerOf op)).watchers }) :=
  moveWatcher_eq_of_eq (towerAt_towerOf hr ha ho) hsame

/-- `MoveWatcher` between two towers: leave the old one, compare, enter the new one. -/
theorem moveWatcher_trace_of_ne (hr : a.Regular) (ha : a.Indexed) (ho : a.InMap op)
    (hn : a.InMap np) (hne : a.towerOf op ≠ a.towerOf np) (id : ObjectId) (out : MoveSets) :
    ∃ a₁ a₂ oldobjs a₃ newobjs a₄, a.eraseObj (a.towerOf op) id = some a₁ ∧
      a₁.areaLoop (a.viewTowers (a.cellToTower op)) (·.erase id) ∅ = some (a₂, oldobjs) ∧
      SameShape a a₂ ∧
      a₂.areaLoop (a.viewTowers (a.cellToTower np)) (·.insert id) ∅ = some (a₃, newobjs) ∧
      a₃.insertObj (a.towerOf np) id = some a₄ ∧ SameShape a a₄ ∧
      let w := moveOject (a₂.tower (a.towerOf op)).watchers (a₂.tower (a.towerOf np)).watchers
        ⟨out.winsert, out.wsame, out.wremove⟩
      let o := moveOject oldobjs newobjs ⟨out.addobjs, out.sameobjs, out.rmobjs⟩
      a.moveWatcher id op np out =
        some (a₄, ⟨w.insert, w.same.insert id, w.remove, o.insert, o.same, o.remove⟩) := by
  obtain ⟨a₁, h₁, hs₁⟩ := exists_eraseObj hr ha ho id
  obtain ⟨a₂, oldobjs, h₂, hs₂⟩ := exists_areaLoop hr ha ho hs₁ (·.erase id) ∅
  obtain ⟨a₃, newobjs, h₃, hs₃⟩ := exists_areaLoop hr ha hn hs₂ (·.insert id) ∅
  obtain ⟨hr₃, ha₃, hn₃, ht₃⟩ := hs₃.regular hr ha hn
  obtain ⟨a₄, h₄, hs₄⟩ := exists_insertObj hr₃ ha₃ hn₃ id
  rw [ht₃] at h₄
  exact ⟨a₁, a₂, oldobjs, a₃, newobjs, a₄, h₁, h₂, hs₂, h₃, h₄, hs₃.trans hs₄,
    moveWatcher_eq_of_ne hne h₁ h₂ (hs₂.towerAt_towerOf hr ha ho) (hs₂.towerAt_towerOf hr ha hn)
      h₃ h₄⟩

/-- **`MoveWatcher` is defined** between any two cells of the map. -/
theorem exists_moveWatcher (hr : a.Regular) (ha : a.Indexed) (ho : a.InMap op) (hn : a.InMap np)
    (id : ObjectId) (out : MoveSets) :
    ∃ a' out', a.moveWatcher id op np out = some (a', out') ∧ SameShape a a' := by
  by_cases hsame : a.towerOf op = a.towerOf np
  · exact ⟨a, _, moveWatcher_trace_of_eq hr ha ho hsame id out, .refl a⟩
  · obtain ⟨_, _, _, _, _, a₄, _, _, _, _, _, hs, h⟩ :=
      moveWatcher_trace_of_ne hr ha ho hn hsame id out
    exact ⟨a₄, _, h, hs⟩

/-- `AddObject` inserts the id on its tower, and adds the watchers of the tower to the set that was
passed. -/
theorem addObject_trace (hr : a.Regular) (ha : a.Indexed) (hp : a.InMap p) (id : ObjectId)
    (watcher : ObjectSet) :
    ∃ a₁, a.insertObj (a.towerOf p) id = some a₁ ∧
      a.addObject id p watcher = some (a₁, watcher ∪ (a.tower (a.towerOf p)).watchers) := by
  obtain ⟨a₁, h₁, -⟩ := exists_insertObj hr ha hp id
  refine ⟨a₁, h₁, ?_⟩
  rw [TowerInfo.towerOf] at h₁
  simp only [addObject, addOrDeleteObject, towerAt_towerOf hr ha hp, h₁, Option.bind_eq_bind,
    Option.bind_some, Option.pure_def]

/-- `DelObject` erases the id on its tower, and adds the watchers of the tower to the set that was
passed. -/
theorem delObject_trace (hr : a.Regular) (ha : a.Indexed) (hp : a.InMap p) (id : ObjectId)
    (watcher : ObjectSet) :
    ∃ a₁, a.eraseObj (a.towerOf p) id = some a₁ ∧
      a.delObject id p watcher = some (a₁, watcher ∪ (a.tower (a.towerOf p)).watchers) := by
  obtain ⟨a₁, h₁, -⟩ := exists_eraseObj hr ha hp id
  refine ⟨a₁, h₁, ?_⟩
  rw [TowerInfo.towerOf] at h₁
  simp only [delObject, addOrDeleteObject, towerAt_towerOf hr ha hp, h₁, Option.bind_eq_bind,
    Option.bind_some, Option.pure_def]

/-- `MoveObject` inside one tower reports nothing. -/
theorem moveObject_trace_of_eq (hsame : a.towerOf op = a.towerOf np) (id : ObjectId)
    (out : DiffSets) : a.moveObject id op np out = some (1, a, out) := by
  have hcell : a.cellToTower op = a.cellToTower np := Point.toPair_injective hsame
  simp only [moveObject, if_pos hcell, Option.pure_def]

/-- `MoveObject` between two towers erases on the old one, inserts on the new one, and compares the
two sets of watchers. -/
theorem moveObject_trace_of_ne (hr : a.Regular) (ha : a.Indexed) (ho : a.InMap op)
    (hn : a.InMap np) (hne : a.towerOf op ≠ a.towerOf np) (id : ObjectId) (out : DiffSets) :
    ∃ a₁ a₂, a.eraseObj (a.towerOf op) id = some a₁ ∧ SameShape a a₁ ∧
      a₁.insertObj (a.towerOf np) id = some a₂ ∧
      a.moveObject id op np out = some (0, a₂, moveOject (a₁.tower (a.towerOf op)).watchers
        (a₁.tower (a.towerOf np)).watchers out) := by
  have hcell : a.cellToTower op ≠ a.cellToTower np := fun h ↦ hne (congrArg Point.toPair h)
  obtain ⟨a₁, h₁, hs₁⟩ := exists_eraseObj hr ha ho id
  obtain ⟨hr₁, ha₁, hn₁, ht₁⟩ := hs₁.regular hr ha hn
  obtain ⟨a₂, h₂, -⟩ := exists_insertObj hr₁ ha₁ hn₁ id
  rw [ht₁] at h₂
  refine ⟨a₁, a₂, h₁, hs₁, h₂, ?_⟩
  rw [TowerInfo.towerOf] at h₁ h₂
  simp only [moveObject, if_neg hcell, h₁, h₂, hs₁.towerAt_towerOf hr ha ho,
    hs₁.towerAt_towerOf hr ha hn, Option.bind_eq_bind, Option.bind_some, Option.pure_def]

/-! ### Effects -/

/-- **`AddWatcher`** puts the id on the board, and reports who looks at its tower and who is near
it. -/
theorem addWatcher_spec (hg : g.Sound) (h : Represents g a B) (hp : g.InMap p)
    (hid : Free B id .watcher (g.towerOf p)) (watcher objs : ObjectSet) :
    ∃ a' watcher' objs', a.addWatcher id p watcher objs = some (a', watcher', objs') ∧
      Represents g a' (B.put id .watcher (g.towerOf p)) ∧
      (∀ i, i ∈ watcher' ↔ i ∈ watcher ∨ B.Watches g.Near i (g.towerOf p)) ∧
      ∀ i, i ∈ objs' ↔ i ∈ objs ∨ B.Within g.Near (g.towerOf p) i := by
  have hinfo := h.info
  subst hinfo
  obtain ⟨a₁, a₂, objs', h₁, h₂, -, heq⟩ :=
    addWatcher_trace hg.toRegular h.indexed hp id watcher objs
  obtain ⟨hrep, hobjs⟩ := h.enter hg hp hid h₁ h₂
  refine ⟨a₂, _, objs', heq, hrep, fun i ↦ ?_, hobjs⟩
  rw [Std.ExtTreeSet.mem_union_iff,
    h.mem_watchers _ (TowerInfo.inGrid_towerOf hg.toRegular hp)]

/-- **`DelWatcher`** takes the id off the board, and reports the others that look at its tower and
the others near it. -/
theorem delWatcher_spec (hg : g.Sound) (h : Represents g a B) (hp : g.InMap p)
    (hid : Free B id .watcher (g.towerOf p)) (watcher objs : ObjectSet) :
    ∃ a' watcher' objs', a.delWatcher id p watcher objs = some (a', watcher', objs') ∧
      Represents g a' (B.remove id) ∧
      (∀ i, i ∈ watcher' ↔ i ≠ id ∧ (i ∈ watcher ∨ B.Watches g.Near i (g.towerOf p))) ∧
      ∀ i, i ∈ objs' ↔ i ∈ objs ∨ i ≠ id ∧ B.Within g.Near (g.towerOf p) i := by
  have hinfo := h.info
  subst hinfo
  obtain ⟨a₁, a₂, objs', h₁, h₂, -, heq⟩ :=
    delWatcher_trace hg.toRegular h.indexed hp id watcher objs
  obtain ⟨hrep, hobjs⟩ := h.leave hg hp hid h₁ h₂
  refine ⟨a₂, _, objs', heq, hrep, fun i ↦ ?_, hobjs⟩
  rw [ObjectSet.mem_erase_iff, Std.ExtTreeSet.mem_union_iff,
    h.mem_watchers _ (TowerInfo.inGrid_towerOf hg.toRegular hp)]

/-- What `MoveWatcher` adds to its six output sets when `id` goes from tower `s` to tower `t` of the
board: the differences of who looks at the two towers and of who is near them, the id itself left
out, except that a change of tower reports the id as a watcher of both. -/
structure MoveSets.Reports (g : TowerInfo) (B : Board ObjectId (Int × Int)) (id : ObjectId)
    (s t : Int × Int) (out out' : MoveSets) : Prop where
  winsert : ∀ i, i ∈ out'.winsert ↔
    i ∈ out.winsert ∨ i ≠ id ∧ B.Watches g.Near i t ∧ ¬ B.Watches g.Near i s
  wsame : ∀ i, i ∈ out'.wsame ↔
    i ∈ out.wsame ∨ s ≠ t ∧ i = id ∨ B.Watches g.Near i s ∧ B.Watches g.Near i t
  wremove : ∀ i, i ∈ out'.wremove ↔
    i ∈ out.wremove ∨ i ≠ id ∧ B.Watches g.Near i s ∧ ¬ B.Watches g.Near i t
  addobjs : ∀ i, i ∈ out'.addobjs ↔
    i ∈ out.addobjs ∨ i ≠ id ∧ B.Within g.Near t i ∧ ¬ B.Within g.Near s i
  sameobjs : ∀ i, i ∈ out'.sameobjs ↔
    i ∈ out.sameobjs ∨ s ≠ t ∧ i ≠ id ∧ B.Within g.Near s i ∧ B.Within g.Near t i
  rmobjs : ∀ i, i ∈ out'.rmobjs ↔
    i ∈ out.rmobjs ∨ i ≠ id ∧ B.Within g.Near s i ∧ ¬ B.Within g.Near t i

/-- A difference of two sets without one id is the difference without that id. -/
private theorem and_and_not_and {q l r : Prop} : (q ∧ l) ∧ ¬ (q ∧ r) ↔ q ∧ l ∧ ¬ r := by
  tauto

private theorem and_and_and {q l r : Prop} : (q ∧ l) ∧ q ∧ r ↔ q ∧ l ∧ r := by
  tauto

/-- **`MoveWatcher`** puts the id at its new tower, unless the towers are the same: then nothing
moves, not even an id that is not registered. -/
theorem moveWatcher_spec (hg : g.Sound) (h : Represents g a B) (ho : g.InMap op) (hn : g.InMap np)
    (hid : Free B id .watcher (g.towerOf op)) (out : MoveSets) :
    ∃ a' out', a.moveWatcher id op np out = some (a', out') ∧
      Represents g a' (if g.towerOf op = g.towerOf np then B
        else B.put id .watcher (g.towerOf np)) ∧
      MoveSets.Reports g B id (g.towerOf op) (g.towerOf np) out out' := by
  have hinfo := h.info
  subst hinfo
  have hto := TowerInfo.inGrid_towerOf hg.toRegular ho
  have htn := TowerInfo.inGrid_towerOf hg.toRegular hn
  by_cases hsame : a.towerOf op = a.towerOf np
  · refine ⟨a, _, moveWatcher_trace_of_eq hg.toRegular h.indexed ho hsame id out, ?_, ?_⟩
    · rwa [if_pos hsame]
    · constructor <;> intro i <;> simp [← hsame, h.mem_watchers _ hto]
  · obtain ⟨a₁, a₂, oldobjs, a₃, newobjs, a₄, h₁, h₂, -, h₃, h₄, -, heq⟩ :=
      moveWatcher_trace_of_ne hg.toRegular h.indexed ho hn hsame id out
    obtain ⟨hleave, hold⟩ := h.leave hg ho hid h₁ h₂
    obtain ⟨henter, hnew⟩ := hleave.enter hg hn .remove h₃ h₄
    refine ⟨a₄, _, heq, ?_, ?_⟩
    · rw [if_neg hsame]
      rwa [Board.put_remove] at henter
    -- The comparisons see the board without the id, on both sides.
    · have hw := mem_moveOject (a₂.tower (a.towerOf op)).watchers
        (a₂.tower (a.towerOf np)).watchers ⟨out.winsert, out.wsame, out.wremove⟩
      have hobj := mem_moveOject oldobjs newobjs ⟨out.addobjs, out.sameobjs, out.rmobjs⟩
      simp only [hleave.mem_watchers _ hto, hleave.mem_watchers _ htn, Board.watches_remove] at hw
      simp only [hold, hnew, Board.within_remove, Std.ExtTreeSet.not_mem_empty, false_or] at hobj
      simp only [and_and_not_and, and_and_and] at hw hobj
      refine ⟨fun i ↦ (hw i).1, fun i ↦ ?_, fun i ↦ (hw i).2.2, fun i ↦ (hobj i).1, fun i ↦ ?_,
        fun i ↦ (hobj i).2.2⟩
      · rw [ObjectSet.mem_insert_iff, (hw i).2.1]
        by_cases hi : i = id
        · simp only [hi, true_or, hsame, ne_eq, not_false_eq_true, and_self, or_true]
        · simp only [hi, false_or, and_false, ne_eq, not_false_eq_true, true_and]
      · rw [(hobj i).2.1]
        exact or_congr_right (iff_and_self.2 fun _ ↦ hsame)

/-- **`AddObject`** puts the id on the board, and reports who looks at its tower. -/
theorem addObject_spec (hg : g.Sound) (h : Represents g a B) (hp : g.InMap p)
    (hid : Free B id .object (g.towerOf p)) (watcher : ObjectSet) :
    ∃ a' watcher', a.addObject id p watcher = some (a', watcher') ∧
      Represents g a' (B.put id .object (g.towerOf p)) ∧
      ∀ i, i ∈ watcher' ↔ i ∈ watcher ∨ B.Watches g.Near i (g.towerOf p) := by
  have hinfo := h.info
  subst hinfo
  obtain ⟨a₁, h₁, heq⟩ := addObject_trace hg.toRegular h.indexed hp id watcher
  refine ⟨a₁, _, heq, h.enterObject hg hp hid h₁, fun i ↦ ?_⟩
  rw [Std.ExtTreeSet.mem_union_iff,
    h.mem_watchers _ (TowerInfo.inGrid_towerOf hg.toRegular hp)]

/-- **`DelObject`** takes the id off the board, and reports who looks at its tower. -/
theorem delObject_spec (hg : g.Sound) (h : Represents g a B) (hp : g.InMap p)
    (hid : Free B id .object (g.towerOf p)) (watcher : ObjectSet) :
    ∃ a' watcher', a.delObject id p watcher = some (a', watcher') ∧
      Represents g a' (B.remove id) ∧
      ∀ i, i ∈ watcher' ↔ i ∈ watcher ∨ B.Watches g.Near i (g.towerOf p) := by
  have hinfo := h.info
  subst hinfo
  obtain ⟨a₁, h₁, heq⟩ := delObject_trace hg.toRegular h.indexed hp id watcher
  refine ⟨a₁, _, heq, h.leaveObject hg hp hid h₁, fun i ↦ ?_⟩
  rw [Std.ExtTreeSet.mem_union_iff,
    h.mem_watchers _ (TowerInfo.inGrid_towerOf hg.toRegular hp)]

/-- What `MoveObject` adds to its three output sets when `id` goes from tower `s` to tower `t`. -/
structure DiffSets.Reports (g : TowerInfo) (B : Board ObjectId (Int × Int)) (s t : Int × Int)
    (out out' : DiffSets) : Prop where
  insert : ∀ i, i ∈ out'.insert ↔
    i ∈ out.insert ∨ B.Watches g.Near i t ∧ ¬ B.Watches g.Near i s
  same : ∀ i, i ∈ out'.same ↔
    i ∈ out.same ∨ s ≠ t ∧ B.Watches g.Near i s ∧ B.Watches g.Near i t
  remove : ∀ i, i ∈ out'.remove ↔
    i ∈ out.remove ∨ B.Watches g.Near i s ∧ ¬ B.Watches g.Near i t

/-- **`MoveObject`** puts the id at its new tower, unless the towers are the same. -/
theorem moveObject_spec (hg : g.Sound) (h : Represents g a B) (ho : g.InMap op) (hn : g.InMap np)
    (hid : Free B id .object (g.towerOf op)) (out : DiffSets) :
    ∃ c a' out', a.moveObject id op np out = some (c, a', out') ∧
      Represents g a' (if g.towerOf op = g.towerOf np then B
        else B.put id .object (g.towerOf np)) ∧
      DiffSets.Reports g B (g.towerOf op) (g.towerOf np) out out' := by
  have hinfo := h.info
  subst hinfo
  have hto := TowerInfo.inGrid_towerOf hg.toRegular ho
  have htn := TowerInfo.inGrid_towerOf hg.toRegular hn
  by_cases hsame : a.towerOf op = a.towerOf np
  · refine ⟨1, a, out, moveObject_trace_of_eq hsame id out, ?_, ?_⟩
    · rwa [if_pos hsame]
    · constructor <;> intro i <;> simp [hsame]
  · obtain ⟨a₁, a₂, h₁, hs₁, h₂, heq⟩ :=
      moveObject_trace_of_ne hg.toRegular h.indexed ho hn hsame id out
    have hleave := h.leaveObject hg ho hid h₁
    have henter := hleave.enterObject hg hn .remove h₂
    refine ⟨0, a₂, _, heq, ?_, ?_⟩
    · rw [if_neg hsame]
      rwa [Board.put_remove] at henter
    · have hw := mem_moveOject (a₁.tower (a.towerOf op)).watchers
        (a₁.tower (a.towerOf np)).watchers out
      -- An object looks at nothing, so erasing it changed no watcher set.
      have hsets : ∀ t, a.InGrid t → ∀ i, i ∈ (a₁.tower t).watchers ↔ B.Watches a.Near i t := by
        intro t ht i
        rw [((eraseObj_tower hg h ho h₁).2 t ht).1, h.mem_watchers t ht]
      simp only [hsets _ hto, hsets _ htn] at hw
      constructor <;> intro i
      · exact (hw i).1
      · rw [(hw i).2.1]
        exact or_congr_right (iff_and_self.2 fun _ ↦ hsame)
      · exact (hw i).2.2

end TowerAoi

end QCLib
