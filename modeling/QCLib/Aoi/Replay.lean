import QCLib.Aoi.Registration

/-!
# Replaying the answers

The manager answers each call with differences, computed from towers that are only partly updated.
A receiver who applies them one after the other — every watcher keeping its own view, starting from
the objects its own `AddWatcher` returned — never reads a tower. Still, after any run of calls its
view is exactly what the towers would show it (`replay`).

Replaying takes a little more care than registering (`Replayable`): the answer sets are passed in
empty, and an id is added only while it is not registered.

Three ways in which a view stays exact, and every call is one of them for every watcher: the board
gains an id and the watcher is told (`gain`), the board loses one and the watcher is told (`lose`),
or the watcher's own picture is set from the answer. `exact_step` goes through the calls, and
`replay` is the induction over the run, with `Aoi.Registration` for the towers.
-/

open CSemantics Interest StepRun

namespace QCLib

namespace TowerAoi

namespace Call

/-- The call passes empty sets for its answer. -/
def Quiet : Call → Prop
  | .addWatcher _ _ watcher objs => watcher = ∅ ∧ objs = ∅
  | .moveWatcher _ _ _ out => out = {}
  | .delWatcher _ _ watcher objs => watcher = ∅ ∧ objs = ∅
  | .addObject _ _ watcher => watcher = ∅
  | .moveObject _ _ _ out => out = {}
  | .delObject _ _ watcher => watcher = ∅

/-- The id that the call adds, if it adds one. -/
def added : Call → Option ObjectId
  | .addWatcher id _ _ _ => some id
  | .addObject id _ _ => some id
  | _ => none

instance : DecidablePred Quiet
  | .addWatcher _ _ watcher objs => inferInstanceAs (Decidable (watcher = ∅ ∧ objs = ∅))
  | .moveWatcher _ _ _ out => inferInstanceAs (Decidable (out = {}))
  | .delWatcher _ _ watcher objs => inferInstanceAs (Decidable (watcher = ∅ ∧ objs = ∅))
  | .addObject _ _ watcher => inferInstanceAs (Decidable (watcher = ∅))
  | .moveObject _ _ _ out => inferInstanceAs (Decidable (out = {}))
  | .delObject _ _ watcher => inferInstanceAs (Decidable (watcher = ∅))

end Call

namespace Tracked

/-- An admissible call whose answer can be replayed: it passes empty sets, and an id that it adds
has no registration. -/
def Replayable (s : Tracked) (c : Call) : Prop :=
  s.Admissible c ∧ c.Quiet ∧ c.added.bind s.registry = none

instance (s : Tracked) : DecidablePred s.Replayable := fun _ ↦ inferInstanceAs (Decidable (_ ∧ _))

variable {g : TowerInfo} {views : ObjectId → ObjectSet} {told : ObjectSet} {id i w : ObjectId}
  {r : Role} {t : Int × Int} {B : Board ObjectId (Int × Int)} {s s' : Tracked} {c : Call}

theorem mem_gain : i ∈ gain views told id w ↔ w ∈ told ∧ i = id ∨ i ∈ views w := by
  unfold gain
  split_ifs with h
  · rw [ObjectSet.mem_insert_iff, and_iff_right h]
  · rw [or_iff_right fun hc ↦ h hc.1]

theorem mem_lose : i ∈ lose views told id w ↔ ¬ (w ∈ told ∧ i = id) ∧ i ∈ views w := by
  unfold lose
  split_ifs with h
  · rw [ObjectSet.mem_erase_iff, and_iff_right h]
  · rw [and_iff_right fun hc ↦ h hc.1]

/-- Every watcher's view is what the board shows it. -/
def Exact (g : TowerInfo) (s : Tracked) : Prop :=
  ∀ w p, s.registry w = some (.watcher, p) →
    ∀ i, i ∈ s.views w ↔ (boardOf g s.registry).Sees g.Near w i

/-! ### Three ways a view stays exact -/

/-- Another id has been put somewhere: only that id can have entered or left the view, and it is in
the view when its new place is watched. -/
theorem exact_put (hw : w ≠ id) (hframe : ∀ i, i ≠ id → (i ∈ views w ↔ B.Sees g.Near w i))
    (hid : id ∈ views w ↔ B.Watches g.Near w t) (i : ObjectId) :
    i ∈ views w ↔ (B.put id r t).Sees g.Near w i := by
  rw [Board.sees_put_of_ne hw]
  split_ifs with hi
  · rw [hi, hid]
  · exact hframe i hi

/-- When another id is removed from the board, a view stays exact if that id is not in it any more.
-/
theorem exact_remove (hw : w ≠ id) (hframe : ∀ i, i ≠ id → (i ∈ views w ↔ B.Sees g.Near w i))
    (hid : id ∉ views w) (i : ObjectId) : i ∈ views w ↔ (B.remove id).Sees g.Near w i := by
  rw [Board.sees_remove]
  by_cases hi : i = id
  · subst hi
    simp only [hid, ne_eq, not_true_eq_false, false_and, and_false]
  · rw [hframe i hi]
    simp only [hw, hi, ne_eq, not_false_eq_true, true_and]

/-- An id that is off the board, or on it at `t`, is seen by nobody but those who watch `t`. -/
theorem watches_of_sees (hid : Free B id r t) (h : B.Sees g.Near w id) : B.Watches g.Near w t := by
  rcases hid with hid | hid
  · exact absurd h (Board.not_sees_of_none hid)
  · exact ((Board.sees_iff_of_eq hid).1 h).2

/-! ### One call -/

/-- A call that adds `id` at `t` and tells whoever watches `t`. -/
private theorem exact_add (hs : s.Exact g) {p : Point} (hid : s.registry id = none)
    (htold : ∀ i, i ∈ told ↔ (boardOf g s.registry).Watches g.Near i (g.towerOf p)) {q : Point}
    (hw : w ≠ id) (hreg : s.registry w = some (.watcher, q)) (i : ObjectId) :
    i ∈ gain s.views told id w ↔
      ((boardOf g s.registry).put id r (g.towerOf p)).Sees g.Near w i := by
  have hnone : boardOf g s.registry id = none := by simp [boardOf, hid]
  refine exact_put hw (fun i hi ↦ ?_) ?_ i
  · rw [mem_gain, or_iff_right fun hc ↦ hi hc.2]
    exact hs w q hreg i
  · rw [mem_gain, htold, and_iff_left rfl, hs w q hreg, or_iff_left (Board.not_sees_of_none hnone)]

/-- A call that deletes `id` from `t` and tells the others who watch `t`. -/
private theorem exact_del (hs : s.Exact g) {p : Point} (hid : s.Unregistered id r p)
    (htold : ∀ i, i ≠ id →
      (i ∈ told ↔ (boardOf g s.registry).Watches g.Near i (g.towerOf p))) {q : Point}
    (hw : w ≠ id) (hreg : s.registry w = some (.watcher, q)) (i : ObjectId) :
    i ∈ lose s.views told id w ↔ ((boardOf g s.registry).remove id).Sees g.Near w i := by
  refine exact_remove hw (fun i hi ↦ ?_) ?_ i
  · rw [mem_lose, and_iff_right fun hc ↦ hi hc.2]
    exact hs w q hreg i
  · rw [mem_lose, htold w hw, and_iff_left rfl, hs w q hreg]
    exact fun h ↦ h.1 (watches_of_sees hid.free h.2)

/-- A call that moves `id` from `s₀` to `t`, telling the others who gain or lose sight of it. -/
private theorem exact_move (hs : s.Exact g) {op np q : Point} {ins rem : ObjectSet}
    (hid : s.registry id = some (r, op))
    (hins : ∀ i, i ≠ id → (i ∈ ins ↔ (boardOf g s.registry).Watches g.Near i (g.towerOf np) ∧
      ¬ (boardOf g s.registry).Watches g.Near i (g.towerOf op)))
    (hrem : ∀ i, i ≠ id → (i ∈ rem ↔ (boardOf g s.registry).Watches g.Near i (g.towerOf op) ∧
      ¬ (boardOf g s.registry).Watches g.Near i (g.towerOf np)))
    (hviews : views w = s.views w) (hw : w ≠ id) (hreg : s.registry w = some (.watcher, q))
    (i : ObjectId) :
    i ∈ lose (gain views ins id) rem id w ↔
      ((boardOf g s.registry).put id r (g.towerOf np)).Sees g.Near w i := by
  refine exact_put hw (fun i hi ↦ ?_) ?_ i
  · rw [mem_lose, mem_gain, and_iff_right fun hc ↦ hi hc.2, or_iff_right fun hc ↦ hi hc.2, hviews]
    exact hs w q hreg i
  · rw [mem_lose, mem_gain, hviews, hs w q hreg, Board.sees_iff_of_eq (boardOf_of_eq hid),
      hins w hw, hrem w hw]
    have := hw.symm
    tauto

private theorem registry_of_ne {e : Option (Role × Point)} {q : Point} (hw : w ≠ id)
    (h : Function.update s.registry id e w = some (.watcher, q)) :
    s.registry w = some (.watcher, q) := by
  rwa [Function.update_of_ne hw] at h

private theorem ne_of_update {e : Option (Role × Point)} {q : Point}
    (he : e ≠ some (.watcher, q))
    (h : Function.update s.registry id e w = some (.watcher, q)) : w ≠ id := by
  rintro rfl
  exact he (by rwa [Function.update_self] at h)

/-- **One call** keeps every view exact: the moved or added watcher's own view is rebuilt from its
own answer, and everybody else is told about that one id. -/
theorem exact_step (hg : g.Sound) (hs : s.Consistent g) (hexact : s.Exact g)
    (hok : s.Replayable c) (hstep : s.step c = some s') : s'.Exact g := by
  have hrep := hs.represents
  have hinfo := hrep.info
  obtain ⟨hok, hquiet, hnew⟩ := hok
  cases c with
  | addWatcher id p watcher objs =>
    obtain ⟨hp, hid⟩ := hok
    obtain ⟨rfl, rfl⟩ := hquiet
    have hnone : s.registry id = none := hnew
    rw [hinfo] at hp
    -- the sets are empty before the call, so what they hold afterwards is what the call told
    obtain ⟨a', watcher', objs', heq, -, hwatcher, hobjs⟩ :=
      addWatcher_spec hg hrep hp hid.free ∅ ∅
    simp only [Std.ExtTreeSet.not_mem_empty, false_or] at hwatcher hobjs
    rw [step, heq] at hstep
    obtain rfl := Option.some.inj hstep
    intro w q hq i
    simp only [boardOf_update_some]
    by_cases hw : w = id
    · -- the new watcher itself replays the set of objects, with its own id taken out
      subst hw
      simp only [Function.update_self, Board.sees_put_self, hobjs]
      refine (and_iff_right_of_imp ?_).symm
      rintro ⟨t, hat, -⟩ rfl
      exact Board.not_at_of_none (by simp [boardOf, hnone]) hat
    · -- everybody else gains the id if and only if the call named them
      rw [Function.update_of_ne hw]
      exact exact_add hexact hnone hwatcher hw (registry_of_ne hw hq) i
  | moveWatcher id op np out =>
    obtain ⟨hp, hid⟩ := hok
    obtain rfl := hquiet
    rw [hinfo] at hp
    obtain ⟨a', out', heq, -, hout⟩ :=
      moveWatcher_spec hg hrep (hs.inMap _ _ _ hid) hp (Or.inr (boardOf_of_eq hid)) {}
    have hins := hout.winsert
    have hrem := hout.wremove
    have hadd := hout.addobjs
    have hrm := hout.rmobjs
    simp only [Std.ExtTreeSet.not_mem_empty, false_or] at hins hrem hadd hrm
    rw [step, heq] at hstep
    obtain rfl := Option.some.inj hstep
    intro w q hq i
    simp only [boardOf_update_some]
    by_cases hw : w = id
    · subst hw
      simp only [mem_lose, mem_gain, hins, hrem, ne_eq, not_true_eq_false, false_and,
        not_false_eq_true, true_and, false_or, Function.update_self, Board.sees_put_self,
        Std.ExtTreeSet.mem_diff_iff, Std.ExtTreeSet.mem_union_iff, hadd, hrm,
        hexact w op hid, Board.sees_iff_of_watcher (boardOf_of_eq hid)]
      tauto
    · exact exact_move hexact hid (fun i hi ↦ by rw [hins, and_iff_right hi])
        (fun i hi ↦ by rw [hrem, and_iff_right hi]) (Function.update_of_ne hw _ _) hw
        (registry_of_ne hw hq) i
  | delWatcher id p watcher objs =>
    obtain ⟨hp, hid⟩ := hok
    obtain ⟨rfl, rfl⟩ := hquiet
    rw [hinfo] at hp
    obtain ⟨a', watcher', objs', heq, -, hwatcher, -⟩ := delWatcher_spec hg hrep hp hid.free ∅ ∅
    simp only [Std.ExtTreeSet.not_mem_empty, false_or] at hwatcher
    rw [step, heq] at hstep
    obtain rfl := Option.some.inj hstep
    intro w q hq i
    simp only [boardOf_update_none]
    have hw : w ≠ id := ne_of_update (by simp) hq
    exact exact_del hexact hid (fun i hi ↦ by rw [hwatcher, and_iff_right hi]) hw
      (registry_of_ne hw hq) i
  | addObject id p watcher =>
    obtain ⟨hp, hid⟩ := hok
    obtain rfl := hquiet
    have hnone : s.registry id = none := hnew
    rw [hinfo] at hp
    obtain ⟨a', watcher', heq, -, hwatcher⟩ := addObject_spec hg hrep hp hid.free ∅
    simp only [Std.ExtTreeSet.not_mem_empty, false_or] at hwatcher
    rw [step, heq] at hstep
    obtain rfl := Option.some.inj hstep
    intro w q hq i
    simp only [boardOf_update_some]
    have hw : w ≠ id := ne_of_update (by simp) hq
    exact exact_add hexact hnone hwatcher hw (registry_of_ne hw hq) i
  | moveObject id op np out =>
    obtain ⟨hp, hid⟩ := hok
    obtain rfl := hquiet
    rw [hinfo] at hp
    obtain ⟨c, a', out', heq, -, hout⟩ :=
      moveObject_spec hg hrep (hs.inMap _ _ _ hid) hp (Or.inr (boardOf_of_eq hid)) {}
    have hins := hout.insert
    have hrem := hout.remove
    simp only [Std.ExtTreeSet.not_mem_empty, false_or] at hins hrem
    rw [step, heq] at hstep
    obtain rfl := Option.some.inj hstep
    intro w q hq i
    simp only [boardOf_update_some]
    have hw : w ≠ id := ne_of_update (by simp) hq
    exact exact_move hexact hid (fun i _ ↦ hins i) (fun i _ ↦ hrem i) rfl hw
      (registry_of_ne hw hq) i
  | delObject id p watcher =>
    obtain ⟨hp, hid⟩ := hok
    obtain rfl := hquiet
    rw [hinfo] at hp
    obtain ⟨a', watcher', heq, -, hwatcher⟩ := delObject_spec hg hrep hp hid.free ∅
    simp only [Std.ExtTreeSet.not_mem_empty, false_or] at hwatcher
    rw [step, heq] at hstep
    obtain rfl := Option.some.inj hstep
    intro w q hq i
    simp only [boardOf_update_none]
    have hw : w ≠ id := ne_of_update (by simp) hq
    exact exact_del hexact hid (fun i _ ↦ hwatcher i) hw (registry_of_ne hw hq) i

/-- The view of every registered watcher is the set of the other ids registered at a cell whose
tower is within the view radius of its own. -/
def ShowsWindows (g : TowerInfo) (s : Tracked) : Prop :=
  ∀ w p, s.registry w = some (.watcher, p) → ∀ i, i ∈ s.views w ↔
    i ≠ w ∧ ∃ r q, s.registry i = some (r, q) ∧
      |(g.towerOf q).1 - (g.towerOf p).1| ≤ g.towerViewWeight ∧
      |(g.towerOf q).2 - (g.towerOf p).2| ≤ g.towerViewHight

theorem Exact.showsWindows (hs : s.Exact g) : s.ShowsWindows g := by
  intro w p hw i
  rw [hs w p hw, Board.sees_iff_of_watcher (boardOf_of_eq hw)]
  refine and_congr_right fun _ ↦ ⟨fun h ↦ ?_, fun h ↦ ?_⟩
  · obtain ⟨t, hat, hn⟩ := h
    obtain ⟨r, q, hq, rfl⟩ := at_boardOf.1 hat
    exact ⟨r, q, hq, hn⟩
  · obtain ⟨r, q, hq, hn⟩ := h
    exact ⟨g.towerOf q, at_boardOf.2 ⟨r, q, hq, rfl⟩, hn⟩

end Tracked

open Tracked

/-- **Replay.** On a square grid whose size plus view radius fits the coordinates, after every run
of replayable calls the accumulated views are what the windows show. -/
theorem replay {w h tw th vw vh : Int} {mapid : MapId} {a : TowerAoi}
    (hnew : TowerAoi.new w h tw th vw vh mapid = some a) (htw : 0 < tw) (hth : 0 < th)
    (hvx : 0 ≤ a.towerViewWeight) (hvy : 0 ≤ a.towerViewHight) (hsq : a.towerXN = a.towerYN)
    (hfx : a.towerXN + a.towerViewWeight ≤ 32767) (hfy : a.towerYN + a.towerViewHight ≤ 32767)
    {calls : List Call} (hok : Guarded step Replayable (start a) calls) :
    ∃ s, run step (start a) calls = some s ∧ s.ShowsWindows a.toTowerInfo := by
  have hg := new_sound hnew htw hth hvx hvy hsq hfx hfy
  have hstep : ∀ s c, s.Consistent a.toTowerInfo ∧ s.Exact a.toTowerInfo → s.Replayable c →
      ∃ s', step s c = some s' ∧ s'.Consistent a.toTowerInfo ∧ s'.Exact a.toTowerInfo := by
    intro s c ⟨hs, hexact⟩ hok
    obtain ⟨s', hs', hcons⟩ := exists_step hg hs hok.1
    exact ⟨s', hs', hcons, exact_step hg hs hexact hok hs'⟩
  have hstart : (start a).Exact a.toTowerInfo := fun w p hw ↦ absurd hw (by simp [start])
  obtain ⟨s, hrun, -, hs⟩ :=
    exists_run hstep ⟨start_consistent (new_represents hnew), hstart⟩ hok
  exact ⟨s, hrun, hs.showsWindows⟩

/-- Two watchers and an object that come into and out of each other's windows. -/
def sampleReplay : List Call :=
  [.addWatcher 1 ⟨0, 0⟩ ∅ ∅, .addObject 3 ⟨7, 7⟩ ∅, .addWatcher 2 ⟨14, 14⟩ ∅ ∅,
    .moveWatcher 1 ⟨0, 0⟩ ⟨9, 0⟩ {}, .moveObject 3 ⟨7, 7⟩ ⟨14, 0⟩ {},
    .moveWatcher 2 ⟨14, 14⟩ ⟨0, 14⟩ {}, .delObject 3 ⟨14, 0⟩ ∅, .addObject 3 ⟨3, 3⟩ ∅]

/-- Two watchers who meet and part again, and what they were told. -/
theorem replay_sampleReplay : ∃ a s, TowerAoi.new 15 15 5 5 5 5 1 = some a ∧
    run step (start a) sampleReplay = some s ∧ s.ShowsWindows a.toTowerInfo := by
  obtain ⟨a, hnew⟩ : ∃ a, TowerAoi.new 15 15 5 5 5 5 1 = some a := ⟨_, rfl⟩
  obtain rfl : (TowerAoi.new 15 15 5 5 5 5 1).get rfl = a := Option.get_of_mem _ hnew
  have hok : Guarded step Replayable (start ((TowerAoi.new 15 15 5 5 5 5 1).get rfl))
      sampleReplay := by decide +kernel
  obtain ⟨s, hrun, hs⟩ := replay hnew (by decide) (by decide) (by decide +kernel)
    (by decide +kernel) (by decide +kernel) (by decide +kernel) (by decide +kernel) hok
  exact ⟨_, s, hnew, hrun, hs⟩

/-- As for registration, the sizes have to leave room for the exclusive end of a window and must not
be negative. -/
theorem replay_needs_room : Overruns Replayable 1 1 32767 ∧ Overruns Replayable 2 (-5) 0 ∧
    Overruns Replayable 1 1 (-2) :=
  ⟨⟨_, rfl, by decide +kernel, by decide +kernel, by decide +kernel, .addWatcher 1 ⟨0, 0⟩ ∅ ∅,
      by decide +kernel, rfl⟩,
    ⟨_, rfl, by decide +kernel, by decide +kernel, by decide +kernel, .addWatcher 1 ⟨0, 0⟩ ∅ ∅,
      by decide +kernel, rfl⟩,
    ⟨_, rfl, by decide +kernel, by decide +kernel, by decide +kernel, .addWatcher 1 ⟨0, 0⟩ ∅ ∅,
      by decide +kernel, rfl⟩⟩

end TowerAoi

end QCLib
