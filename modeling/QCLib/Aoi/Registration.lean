import QCLib.Aoi.Operations
import QCLib.Aoi.Construction
import QCLib.Foundations.StepRun

/-!
# Runs of calls, and what they register

A run is a list of calls, by any ids. Beside the manager we keep what its caller knows: where each
id is *registered*, as it last asked for, and the *views* a receiver of the output sets accumulates.
The views are the subject of another file; here they are along for the ride.

`Admissible` is the caller's side of the contract: cells are inside the map, an id is added while it
is unregistered or again at its own cell, moved from its own cell, and deleted from its own cell or
when it is not registered at all. The contract's other side is `registration`: the run is defined,
and an id is in the objects of exactly the tower it is registered at, and among the watchers of
exactly the towers its window covers.

The registry is a function of the ids, and a call changes it at one id. `Consistent` ties the three
together: the towers show the board that the registry spells out, and every registered position lies
on the map. `exists_step` is the step for all six calls, and the run is `exists_run` of
`Foundations.StepRun`.

Deleting an id that is not registered, or adding one a second time at its own cell, is allowed,
because the code is harmless there and its callers do so.
-/

open CSemantics Interest StepRun

namespace QCLib

namespace TowerAoi

/-- One call, with the initial contents of the sets it is passed for its answer. -/
inductive Call where
  | addWatcher (id : ObjectId) (p : Point) (watcher objs : ObjectSet)
  | moveWatcher (id : ObjectId) (op np : Point) (out : MoveSets)
  | delWatcher (id : ObjectId) (p : Point) (watcher objs : ObjectSet)
  | addObject (id : ObjectId) (p : Point) (watcher : ObjectSet)
  | moveObject (id : ObjectId) (op np : Point) (out : DiffSets)
  | delObject (id : ObjectId) (p : Point) (watcher : ObjectSet)

/-- Where each id is registered, and as what. -/
abbrev Registry := ObjectId → Option (Role × Point)

/-- The manager with what its caller keeps beside it. -/
structure Tracked where
  aoi : TowerAoi
  registry : Registry
  /-- For each watcher, the ids it has been told it can see. -/
  views : ObjectId → ObjectSet

namespace Tracked

/-- Everybody told about `id` appearing adds it to its view. -/
def gain (views : ObjectId → ObjectSet) (told : ObjectSet) (id : ObjectId) :
    ObjectId → ObjectSet :=
  fun w ↦ if w ∈ told then (views w).insert id else views w

/-- Everybody told about `id` disappearing drops it from its view. -/
def lose (views : ObjectId → ObjectSet) (told : ObjectSet) (id : ObjectId) :
    ObjectId → ObjectSet :=
  fun w ↦ if w ∈ told then (views w).erase id else views w

/-- A manager that nobody has called yet. -/
def start (a : TowerAoi) : Tracked := ⟨a, fun _ ↦ none, fun _ ↦ ∅⟩

/-- Make one call, and act on its answer. -/
def step (s : Tracked) : Call → Option Tracked
  | .addWatcher id p watcher objs => do
    let (aoi, watcher, objs) ← s.aoi.addWatcher id p watcher objs
    return {
      aoi
      registry := Function.update s.registry id (some (.watcher, p))
      views := Function.update (gain s.views watcher id) id objs }
  | .moveWatcher id op np out => do
    let (aoi, out) ← s.aoi.moveWatcher id op np out
    let views := Function.update s.views id ((s.views id ∪ out.addobjs) \ out.rmobjs)
    return {
      aoi
      registry := Function.update s.registry id (some (.watcher, np))
      views := lose (gain views out.winsert id) out.wremove id }
  | .delWatcher id p watcher objs => do
    let (aoi, watcher, _) ← s.aoi.delWatcher id p watcher objs
    return {
      aoi
      registry := Function.update s.registry id none
      views := lose s.views watcher id }
  | .addObject id p watcher => do
    let (aoi, watcher) ← s.aoi.addObject id p watcher
    return {
      aoi
      registry := Function.update s.registry id (some (.object, p))
      views := gain s.views watcher id }
  | .moveObject id op np out => do
    let (_, aoi, out) ← s.aoi.moveObject id op np out
    return {
      aoi
      registry := Function.update s.registry id (some (.object, np))
      views := lose (gain s.views out.insert id) out.remove id }
  | .delObject id p watcher => do
    let (aoi, watcher) ← s.aoi.delObject id p watcher
    return {
      aoi
      registry := Function.update s.registry id none
      views := lose s.views watcher id }

/-- The id is unregistered, or registered exactly so. -/
def Unregistered (s : Tracked) (id : ObjectId) (r : Role) (p : Point) : Prop :=
  s.registry id = none ∨ s.registry id = some (r, p)

instance (s : Tracked) (id : ObjectId) (r : Role) (p : Point) : Decidable (s.Unregistered id r p) :=
  inferInstanceAs (Decidable (_ ∨ _))

/-- The caller's side of the contract. -/
def Admissible (s : Tracked) : Call → Prop
  | .addWatcher id p _ _ => s.aoi.InMap p ∧ s.Unregistered id .watcher p
  | .moveWatcher id op np _ => s.aoi.InMap np ∧ s.registry id = some (.watcher, op)
  | .delWatcher id p _ _ => s.aoi.InMap p ∧ s.Unregistered id .watcher p
  | .addObject id p _ => s.aoi.InMap p ∧ s.Unregistered id .object p
  | .moveObject id op np _ => s.aoi.InMap np ∧ s.registry id = some (.object, op)
  | .delObject id p _ => s.aoi.InMap p ∧ s.Unregistered id .object p

instance (s : Tracked) : DecidablePred s.Admissible := fun c ↦ by
  cases c <;> exact inferInstanceAs (Decidable (_ ∧ _))

/-! ### The board of a registry -/

/-- The board the towers should show: everybody at the tower of its cell. -/
def boardOf (g : TowerInfo) (registry : Registry) : Board ObjectId (Int × Int) :=
  fun id ↦ (registry id).map fun rp ↦ (rp.1, g.towerOf rp.2)

variable {g : TowerInfo} {registry : Registry} {id i w : ObjectId} {r : Role} {p : Point}
  {s s' : Tracked} {c : Call}

/-- An entry of the registry is a piece on the board, on the tower of its position. -/
theorem boardOf_of_eq (h : registry id = some (r, p)) :
    boardOf g registry id = some (r, g.towerOf p) := by
  simp [boardOf, h]

theorem boardOf_update_some :
    boardOf g (Function.update registry id (some (r, p))) =
      (boardOf g registry).put id r (g.towerOf p) := by
  funext i
  by_cases hi : i = id
  · subst hi
    simp [boardOf]
  · simp [boardOf, hi]

/-- Taking somebody out of the registry takes the piece away. -/
theorem boardOf_update_none :
    boardOf g (Function.update registry id none) = (boardOf g registry).remove id := by
  funext i
  by_cases hi : i = id
  · subst hi
    simp [boardOf]
  · simp [boardOf, hi]

theorem Unregistered.free (h : s.Unregistered id r p) :
    Free (boardOf g s.registry) id r (g.towerOf p) := by
  rcases h with h | h
  · exact Or.inl (by simp [boardOf, h])
  · exact Or.inr (boardOf_of_eq h)

/-- Moving a registered id is putting it at its new tower, also when the tower is the old one. -/
theorem boardOf_move {op np : Point} (h : registry id = some (r, op)) :
    (if g.towerOf op = g.towerOf np then boardOf g registry
      else (boardOf g registry).put id r (g.towerOf np)) =
      boardOf g (Function.update registry id (some (r, np))) := by
  rw [boardOf_update_some]
  split_ifs with hsame
  · rw [Board.put_eq_self]
    rw [boardOf_of_eq h, hsame]
  · rfl

/-- Who stands on a tower is who is registered with a position there. -/
theorem at_boardOf {t : Int × Int} :
    (boardOf g registry).At i t ↔ ∃ r p, registry i = some (r, p) ∧ g.towerOf p = t := by
  simp only [Board.At, boardOf, Option.map_eq_some_iff, Prod.mk.injEq]
  refine ⟨fun h ↦ ?_, fun h ↦ ?_⟩
  · obtain ⟨r, ⟨r', p⟩, h, -, ht⟩ := h
    exact ⟨r', p, h, ht⟩
  · obtain ⟨r, p, h, ht⟩ := h
    exact ⟨r, (r, p), h, rfl, ht⟩

/-- Who watches a tower is a watcher whose own tower is near it. -/
theorem watches_boardOf {t : Int × Int} :
    (boardOf g registry).Watches g.Near i t ↔
      ∃ p, registry i = some (.watcher, p) ∧ g.Near (g.towerOf p) t := by
  simp only [Board.Watches, boardOf, Option.map_eq_some_iff, Prod.mk.injEq]
  refine ⟨fun h ↦ ?_, fun h ↦ ?_⟩
  · obtain ⟨s, ⟨⟨r, p⟩, h, hr, ht⟩, hn⟩ := h
    subst hr ht
    exact ⟨p, h, hn⟩
  · obtain ⟨p, h, hn⟩ := h
    exact ⟨_, ⟨(.watcher, p), h, rfl, rfl⟩, hn⟩

/-! ### Every reachable state -/

/-- The towers show the registry, whose cells are all inside the map. -/
structure Consistent (g : TowerInfo) (s : Tracked) : Prop where
  represents : Represents g s.aoi (boardOf g s.registry)
  inMap : ∀ i r p, s.registry i = some (r, p) → g.InMap p

private theorem inMap_update {registry' : Option (Role × Point)}
    (h : ∀ i r p, registry i = some (r, p) → g.InMap p)
    (h' : ∀ r p, registry' = some (r, p) → g.InMap p) :
    ∀ i r p, Function.update registry id registry' i = some (r, p) → g.InMap p := by
  intro i r p hi
  by_cases hid : i = id
  · subst hid
    rw [Function.update_self] at hi
    exact h' r p hi
  · rw [Function.update_of_ne hid] at hi
    exact h i r p hi

private theorem inMap_of_eq {r' : Role} (hp : g.InMap p) :
    ∀ r q, some (r', p) = some (r, q) → g.InMap q := by
  intro r q hq
  obtain ⟨-, rfl⟩ := Prod.mk.inj (Option.some.inj hq)
  exact hp

private theorem inMap_of_none : ∀ (r : Role) q, none = some (r, q) → g.InMap q := by
  intro r q hq
  exact absurd hq (by simp)

/-- **One call**: admissible calls are defined and keep the towers in step with the registry. -/
theorem exists_step (hg : g.Sound) (hs : s.Consistent g) (hok : s.Admissible c) :
    ∃ s', s.step c = some s' ∧ s'.Consistent g := by
  have hrep := hs.represents
  have hinfo := hrep.info
  cases c with
  | addWatcher id p watcher objs =>
    obtain ⟨hp, hid⟩ := hok
    rw [hinfo] at hp
    obtain ⟨a', watcher', objs', heq, hrep', -⟩ := addWatcher_spec hg hrep hp hid.free watcher objs
    refine ⟨_, by rw [step, heq]; rfl, ?_, inMap_update hs.inMap (inMap_of_eq hp)⟩
    rwa [boardOf_update_some]
  | moveWatcher id op np out =>
    obtain ⟨hp, hid⟩ := hok
    rw [hinfo] at hp
    obtain ⟨a', out', heq, hrep', -⟩ :=
      moveWatcher_spec hg hrep (hs.inMap _ _ _ hid) hp (Or.inr (boardOf_of_eq hid)) out
    refine ⟨_, by rw [step, heq]; rfl, ?_, inMap_update hs.inMap (inMap_of_eq hp)⟩
    rwa [boardOf_move hid] at hrep'
  | delWatcher id p watcher objs =>
    obtain ⟨hp, hid⟩ := hok
    rw [hinfo] at hp
    obtain ⟨a', watcher', objs', heq, hrep', -⟩ := delWatcher_spec hg hrep hp hid.free watcher objs
    refine ⟨_, by rw [step, heq]; rfl, ?_, inMap_update hs.inMap inMap_of_none⟩
    rwa [boardOf_update_none]
  | addObject id p watcher =>
    obtain ⟨hp, hid⟩ := hok
    rw [hinfo] at hp
    obtain ⟨a', watcher', heq, hrep', -⟩ := addObject_spec hg hrep hp hid.free watcher
    refine ⟨_, by rw [step, heq]; rfl, ?_, inMap_update hs.inMap (inMap_of_eq hp)⟩
    rwa [boardOf_update_some]
  | moveObject id op np out =>
    obtain ⟨hp, hid⟩ := hok
    rw [hinfo] at hp
    obtain ⟨c, a', out', heq, hrep', -⟩ :=
      moveObject_spec hg hrep (hs.inMap _ _ _ hid) hp (Or.inr (boardOf_of_eq hid)) out
    refine ⟨_, by rw [step, heq]; rfl, ?_, inMap_update hs.inMap (inMap_of_eq hp)⟩
    rwa [boardOf_move hid] at hrep'
  | delObject id p watcher =>
    obtain ⟨hp, hid⟩ := hok
    rw [hinfo] at hp
    obtain ⟨a', watcher', heq, hrep', -⟩ := delObject_spec hg hrep hp hid.free watcher
    refine ⟨_, by rw [step, heq]; rfl, ?_, inMap_update hs.inMap inMap_of_none⟩
    rwa [boardOf_update_none]

theorem start_consistent {a : TowerAoi} (h : Represents a.toTowerInfo a Board.empty) :
    (start a).Consistent a.toTowerInfo :=
  ⟨h, fun i r p hi ↦ absurd hi (by simp [start])⟩

/-- What the towers say about registration: an id is in the objects of a tower exactly when it is
registered at a cell of it, among the watchers exactly when it is registered as a watcher whose own
tower is within the view radius, and mentioned by no tower at all when it is not registered. -/
structure Registers (g : TowerInfo) (s : Tracked) : Prop where
  tower : ∀ t, g.InGrid t → ∃ tower, s.aoi.towerAt t = some tower ∧
    (∀ i, i ∈ tower.objs ↔ ∃ r p, s.registry i = some (r, p) ∧ g.towerOf p = t) ∧
    ∀ i, i ∈ tower.watchers ↔ ∃ p, s.registry i = some (.watcher, p) ∧
      |t.1 - (g.towerOf p).1| ≤ g.towerViewWeight ∧ |t.2 - (g.towerOf p).2| ≤ g.towerViewHight
  unmentioned : ∀ i, s.registry i = none →
    ∀ tower ∈ s.aoi.towers, i ∉ tower.objs ∧ i ∉ tower.watchers

/-- In a state that agrees with its registry, every id is in the objects of the tower it is
registered at, and among the watchers of the towers in its window. -/
theorem Consistent.registers (hg : g.Sound) (hN : 0 ≤ g.towerYN) (hs : s.Consistent g) :
    s.Registers g := by
  have hrep := hs.represents
  have hinfo := hrep.info
  constructor
  case tower =>
    intro t ht
    refine ⟨s.aoi.tower t, towerAt_eq hrep.indexed (hinfo ▸ ht), fun i ↦ ?_, fun i ↦ ?_⟩
    · rw [hrep.mem_objs t ht, at_boardOf]
    · rw [hrep.mem_watchers t ht, watches_boardOf]
      rfl
  case unmentioned =>
    intro i hi tower hmem
    have hnone : boardOf g s.registry i = none := by simp [boardOf, hi]
    exact hrep.notMem_of_none hg.square hN hnone hmem

/-- A square grid whose indices and view radius fit the coordinates, and an admissible call on it
that has no defined result. -/
def Overruns (ok : Tracked → Call → Prop) (w t v : Int) : Prop :=
  ∃ a, TowerAoi.new w w t t v v 1 = some a ∧ a.towerXN = a.towerYN ∧
    (a.towerXN - 1) + a.towerViewWeight ≤ 32767 ∧ (a.towerYN - 1) + a.towerViewHight ≤ 32767 ∧
    ∃ c, Guarded step ok (start a) [c] ∧ run step (start a) [c] = none

end Tracked

open Tracked

/-- **Registration.** On a square grid whose size plus view radius fits the coordinates, every run
of admissible calls is defined, and the towers agree with the registry wherever it ends. -/
theorem registration {w h tw th vw vh : Int} {mapid : MapId} {a : TowerAoi}
    (hnew : TowerAoi.new w h tw th vw vh mapid = some a) (htw : 0 < tw) (hth : 0 < th)
    (hvx : 0 ≤ a.towerViewWeight) (hvy : 0 ≤ a.towerViewHight) (hsq : a.towerXN = a.towerYN)
    (hfx : a.towerXN + a.towerViewWeight ≤ 32767) (hfy : a.towerYN + a.towerViewHight ≤ 32767)
    {calls : List Call} (hok : Guarded step Admissible (start a) calls) :
    ∃ s, run step (start a) calls = some s ∧ s.Registers a.toTowerInfo := by
  have hg := new_sound hnew htw hth hvx hvy hsq hfx hfy
  obtain ⟨s, hrun, hs⟩ := exists_run (fun s c ↦ exists_step hg)
    (start_consistent (new_represents hnew)) hok
  exact ⟨s, hrun, hs.registers hg (new_eq_some hnew).towerYN_nonneg⟩

/-- Two watchers and an object on a grid of three by three towers; one watcher crosses towers twice,
the other is registered twice and deleted. -/
def sampleCalls : List Call :=
  [.addWatcher 1 ⟨0, 0⟩ ∅ ∅, .addWatcher 2 ⟨14, 14⟩ ∅ ∅, .addObject 3 ⟨7, 7⟩ ∅,
    .moveWatcher 1 ⟨0, 0⟩ ⟨9, 0⟩ {}, .addWatcher 2 ⟨14, 14⟩ ∅ ∅, .moveObject 3 ⟨7, 7⟩ ⟨14, 0⟩ {},
    .delWatcher 2 ⟨14, 14⟩ ∅ ∅, .moveWatcher 1 ⟨9, 0⟩ ⟨14, 14⟩ {}]

/-- Calls of every kind on a small map. -/
theorem registration_sampleCalls : ∃ a s, TowerAoi.new 15 15 5 5 5 5 1 = some a ∧
    run step (start a) sampleCalls = some s ∧ s.Registers a.toTowerInfo := by
  obtain ⟨a, hnew⟩ : ∃ a, TowerAoi.new 15 15 5 5 5 5 1 = some a := ⟨_, rfl⟩
  obtain rfl : (TowerAoi.new 15 15 5 5 5 5 1).get rfl = a := Option.get_of_mem _ hnew
  have hok : Guarded step Admissible (start ((TowerAoi.new 15 15 5 5 5 5 1).get rfl))
      sampleCalls := by decide +kernel
  obtain ⟨s, hrun, hs⟩ := registration hnew (by decide) (by decide) (by decide +kernel)
    (by decide +kernel) (by decide +kernel) (by decide +kernel) (by decide +kernel) hok
  exact ⟨_, s, hnew, hrun, hs⟩

/-- The room is needed for the *exclusive* end of a window: where indices and radius only just fit,
the far corner wraps around and the loop over the window never meets its bound. Nor may the sizes be
negative: the grid may then have no tower at all, or the window be turned inside out. -/
theorem registration_needs_room : Overruns Admissible 1 1 32767 ∧ Overruns Admissible 2 (-5) 0 ∧
    Overruns Admissible 1 1 (-2) :=
  ⟨⟨_, rfl, by decide +kernel, by decide +kernel, by decide +kernel, .addWatcher 1 ⟨0, 0⟩ ∅ ∅,
      by decide +kernel, rfl⟩,
    ⟨_, rfl, by decide +kernel, by decide +kernel, by decide +kernel, .addWatcher 1 ⟨0, 0⟩ ∅ ∅,
      by decide +kernel, rfl⟩,
    ⟨_, rfl, by decide +kernel, by decide +kernel, by decide +kernel, .addWatcher 1 ⟨0, 0⟩ ∅ ∅,
      by decide +kernel, rfl⟩⟩

end TowerAoi

end QCLib
