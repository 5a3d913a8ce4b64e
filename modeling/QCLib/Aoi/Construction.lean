import QCLib.Aoi.Board

/-!
# Building a manager

What the constructor guarantees when it returns. The sizes are the ones asked for, the tower grid
covers the map, every tower of the grid has its place in `m_towers` — the initialisation loop has
just visited it — and no tower mentions any id.

So the conditions under which the machine arithmetic is right can be read off the sizes
(`new_regular`), and a fresh manager on a square grid shows the empty board (`new_represents`).

`TowerAoi::new` is defined only where the machine arithmetic of the constructor is: a division by
zero, a sum beyond `int32_t` and a loop that starts above its bound are `none`. So a statement about
a manager that was built needs no bounds of its own, and the ones below are about sizes that are
positive:

* `new_eq_some` — what the constructor returns, as a record of facts (`Built`);
* `new_regular` — where the window bounds fit the 16 bits of a coordinate, the sizes are `Regular`;
* `new_sound` — on a square grid they are `Sound`, which is what every later result asks for;
* `new_represents` — the fresh towers show the empty board.
-/

open CSemantics Interest

namespace QCLib

namespace TowerAoi

variable {a a' : TowerAoi} {w h tw th vw vh : Int} {id : MapId}

/-! ### The number of towers -/

theorem towerCount_eq {v t n : Int} (hn : towerCount v t = some n) : n = (v + t - 1).tdiv t := by
  simp only [towerCount, Option.bind_eq_bind, Option.bind_eq_some_iff, int32_eq_some_iff] at hn
  obtain ⟨_, ⟨-, rfl⟩, _, ⟨-, rfl⟩, hdiv⟩ := hn
  unfold div32 at hdiv
  split_ifs at hdiv
  exact (int32_eq_some_iff.1 hdiv).2

/-- The towers cover the map, because the division rounds up. -/
theorem le_towerCount_mul {v t n : Int} (ht : 0 < t) (hn : towerCount v t = some n) :
    v ≤ n * t := by
  rw [towerCount_eq hn, Int.mul_comm]
  have hdivmod := Int.mul_tdiv_add_tmod (v + t - 1) t
  have hmod : (v + t - 1).tmod t < t := Int.tmod_lt_of_pos _ ht
  omega

/-- The towers go beyond the map by less than one tower. -/
theorem towerCount_mul_le {v t n : Int} (hv : 0 < v) (ht : 0 < t)
    (hn : towerCount v t = some n) : n * t ≤ v + t - 1 := by
  rw [towerCount_eq hn, Int.tdiv_eq_ediv_of_nonneg (by omega)]
  exact Int.ediv_mul_le _ ht.ne'

/-- A positive size is covered by a positive number of towers. -/
theorem towerCount_pos {v t n : Int} (hv : 0 < v) (ht : 0 < t) (hn : towerCount v t = some n) :
    0 < n := by
  have hcover := le_towerCount_mul ht hn
  exact pos_of_mul_pos_left (show 0 < n * t by omega) ht.le

/-- The sizes, with the four counts that `InitTowers` derives before it allocates anything. -/
def ofSizes (w h tw th vw vh : Int) (id : MapId) : Option TowerInfo := do
  let towerXN ← towerCount w tw
  let towerYN ← towerCount h th
  let towerViewWeight ← towerCount vw tw
  let towerViewHight ← towerCount vh th
  return {
    weight := w, hight := h, viewWeight := vw, viewHight := vh, towerViewWeight, towerViewHight,
    towerXN, towerYN, towerWeight := tw, towerHight := th, mapid := id }

/-- What the sizes are. -/
structure Sized (w h tw th vw vh : Int) (g : TowerInfo) : Prop where
  weight : g.weight = w
  hight : g.hight = h
  viewWeight : g.viewWeight = vw
  viewHight : g.viewHight = vh
  towerWeight : g.towerWeight = tw
  towerHight : g.towerHight = th
  towerXN : towerCount w tw = some g.towerXN
  towerYN : towerCount h th = some g.towerYN
  towerViewWeight : towerCount vw tw = some g.towerViewWeight
  towerViewHight : towerCount vh th = some g.towerViewHight

theorem ofSizes_eq_some {g : TowerInfo} (hg : ofSizes w h tw th vw vh id = some g) :
    Sized w h tw th vw vh g := by
  simp only [ofSizes, Option.bind_eq_bind, Option.bind_eq_some_iff, Option.pure_def,
    Option.some.injEq] at hg
  obtain ⟨xn, hxn, yn, hyn, vx, hvx, vy, hvy, rfl⟩ := hg
  exact ⟨rfl, rfl, rfl, rfl, rfl, rfl, hxn, hyn, hvx, hvy⟩

theorem Sized.tiled {g : TowerInfo} (hg : Sized w h tw th vw vh g) (htw : 0 < tw) (hth : 0 < th) :
    g.Tiled := by
  constructor
  case towerWeight_pos => rwa [hg.towerWeight]
  case towerHight_pos => rwa [hg.towerHight]
  case weight_le =>
    rw [hg.weight, hg.towerWeight]
    exact le_towerCount_mul htw hg.towerXN
  case hight_le =>
    rw [hg.hight, hg.towerHight]
    exact le_towerCount_mul hth hg.towerYN

/-- The constructor computes the sizes, allocates, and initialises. -/
theorem new_eq (w h tw th vw vh : Int) (id : MapId) :
    new w h tw th vw vh id = (ofSizes w h tw th vw vh id).bind fun g ↦
      (int32 (g.towerXN * g.towerYN)).bind fun size ↦
        if size < 0 then none
        else initTowers { g with towers := List.replicate size.toNat default } := by
  simp only [new, ofSizes, Option.bind_eq_bind, Option.pure_def, Option.bind_assoc,
    Option.bind_some]
  congr! 10

/-! ### The initialisation loop -/

/-- No tower mentions any id. -/
def Fresh (a : TowerAoi) : Prop := ∀ tower ∈ a.towers, tower.objs = ∅ ∧ tower.watchers = ∅

private theorem fresh_modifyTower {t : Int × Int} {lu : Point} {n : Int} (ha : a.Fresh)
    (hstep : a.modifyTower t (fun tower ↦ tower.init lu n) = some a') : a'.Fresh := by
  obtain ⟨-, rfl⟩ := modifyTower_eq_some_iff.1 hstep
  intro tower hmem
  obtain ⟨k, hk, rfl⟩ := List.mem_iff_getElem.1 hmem
  have hold := ha _ (List.getElem_mem (by simpa using hk))
  rw [List.getElem_modify]
  split_ifs
  · exact hold
  · exact hold

/-- The loop of `InitTowers` has put the corner and the number into every tower that it has visited.
-/
private theorem initTowers_loop {ts : List (Int × Int)} {lu : TowerAoi → Int × Int → Point}
    {n : TowerAoi → Int × Int → Int} (ha : a.Fresh)
    (hrun : ts.foldlM (fun a t ↦ a.modifyTower t fun tower ↦ tower.init (lu a t) (n a t)) a =
      some a') :
    SameShape a a' ∧ a'.Fresh ∧
      ∀ t ∈ ts, 0 ≤ a.towerId t.1 t.2 ∧ a.towerId t.1 t.2 < a.towers.length := by
  induction ts generalizing a with
  | nil =>
    obtain rfl := Option.some.inj hrun
    exact ⟨.refl a, ha, by simp⟩
  | cons t ts ih =>
    rw [List.foldlM_cons] at hrun
    obtain ⟨a₁, h₁, hrest⟩ := Option.bind_eq_some_iff.1 hrun
    have hs₁ := sameShape_of_modifyTower h₁
    obtain ⟨hs, hfresh, hmem⟩ := ih (fresh_modifyTower ha h₁) hrest
    refine ⟨hs₁.trans hs, hfresh, fun s hs' ↦ ?_⟩
    rcases List.mem_cons.1 hs' with rfl | hs'
    · exact (modifyTower_eq_some_iff.1 h₁).1
    · have := hmem s hs'
      rwa [hs₁.info, hs₁.length] at this

/-- The loop leaves the sets empty, and has visited every tower of the grid. -/
theorem initTowers_eq_some (ha : a.Fresh) (hinit : a.initTowers = some a') :
    SameShape a a' ∧ a'.Fresh ∧ a'.Indexed ∧ 0 ≤ a'.towerYN := by
  obtain ⟨ts, hts, hrun⟩ := Option.bind_eq_some_iff.1 hinit
  obtain ⟨hs, hfresh, hvisited⟩ := initTowers_loop ha hrun
  have hN : 0 ≤ a'.towerYN := by
    rw [hs.info]
    obtain ⟨ys, hys, -⟩ := Option.bind_eq_some_iff.1 hts
    unfold neRange at hys
    split_ifs at hys
    assumption
  refine ⟨hs, hfresh, hs.indexed fun t ht ↦ hvisited t ?_, hN⟩
  obtain ⟨hx, hy⟩ := ht
  obtain ⟨l, hl, hmem⟩ := exists_neLoops (show (0 : Int) ≤ a.towerXN by omega)
    (show (0 : Int) ≤ a.towerYN by omega)
  obtain rfl := Option.some.inj (hl.symm.trans hts)
  exact (hmem t).2 ⟨hx, hy⟩

/-! ### The constructor -/

/-- What the constructor returns. -/
structure Built (w h tw th vw vh : Int) (a : TowerAoi) : Prop where
  weight : a.weight = w
  hight : a.hight = h
  towerWeight : a.towerWeight = tw
  towerHight : a.towerHight = th
  towerXN : towerCount w tw = some a.towerXN
  towerYN : towerCount h th = some a.towerYN
  towerViewWeight : towerCount vw tw = some a.towerViewWeight
  towerViewHight : towerCount vh th = some a.towerViewHight
  length : (a.towers.length : Int) = a.towerXN * a.towerYN
  towerYN_nonneg : 0 ≤ a.towerYN
  fresh : a.Fresh
  indexed : a.Indexed

/-- The manager has the sizes computed first, and the loop has visited the whole grid. -/
theorem new_steps (hnew : new w h tw th vw vh id = some a) :
    ofSizes w h tw th vw vh id = some a.toTowerInfo ∧ a.towerXN * a.towerYN < 2 ^ 31 ∧
      (a.towers.length : Int) = a.towerXN * a.towerYN ∧ a.Fresh ∧ a.Indexed ∧
      0 ≤ a.towerYN := by
  simp only [new_eq, Option.bind_eq_some_iff, int32_eq_some_iff] at hnew
  obtain ⟨g, hg, _, ⟨hfit, rfl⟩, hinit⟩ := hnew
  split_ifs at hinit with hneg
  obtain ⟨hs, hfresh, hindexed, hN⟩ := initTowers_eq_some (fun tower hmem ↦ by
    rw [List.eq_of_mem_replicate hmem]
    exact ⟨rfl, rfl⟩) hinit
  have hinfo : a.toTowerInfo = g := hs.info
  have hlen := hs.length
  rw [List.length_replicate] at hlen
  subst hinfo
  refine ⟨hg, hfit.2, ?_, hfresh, hindexed, hN⟩
  rw [hlen]
  exact Int.toNat_of_nonneg (by omega)

theorem new_eq_some (hnew : new w h tw th vw vh id = some a) : Built w h tw th vw vh a := by
  obtain ⟨hg, -, hlen, hfresh, hindexed, hN⟩ := new_steps hnew
  have hs := ofSizes_eq_some hg
  exact ⟨hs.weight, hs.hight, hs.towerWeight, hs.towerHight, hs.towerXN, hs.towerYN,
    hs.towerViewWeight, hs.towerViewHight, hlen, hN, hfresh, hindexed⟩

/-- **Regular sizes.** Positive tower sizes, a non-negative view, and window bounds that fit the
coordinates make the window arithmetic right, on any grid. -/
theorem new_regular (hnew : new w h tw th vw vh id = some a) (htw : 0 < tw) (hth : 0 < th)
    (hvx : 0 ≤ a.towerViewWeight) (hvy : 0 ≤ a.towerViewHight)
    (hfx : ∀ x : Coordinate, 0 ≤ x.toInt → x.toInt < w → x.toInt / tw + a.towerViewWeight < 32767)
    (hfy : ∀ y : Coordinate, 0 ≤ y.toInt → y.toInt < h → y.toInt / th + a.towerViewHight < 32767) :
    a.Regular := by
  have hb := new_eq_some hnew
  constructor
  case towerWeight_pos => rwa [hb.towerWeight]
  case towerHight_pos => rwa [hb.towerHight]
  case weight_le =>
    rw [hb.weight, hb.towerWeight]
    exact le_towerCount_mul htw hb.towerXN
  case hight_le =>
    rw [hb.hight, hb.towerHight]
    exact le_towerCount_mul hth hb.towerYN
  case towerViewWeight_nonneg => exact hvx
  case towerViewHight_nonneg => exact hvy
  case fits_x =>
    rw [hb.weight, hb.towerWeight]
    exact hfx
  case fits_y =>
    rw [hb.hight, hb.towerHight]
    exact hfy

/-- **Sound sizes.** It is enough that the number of towers plus the view radius fits. -/
theorem new_sound (hnew : new w h tw th vw vh id = some a) (htw : 0 < tw) (hth : 0 < th)
    (hvx : 0 ≤ a.towerViewWeight) (hvy : 0 ≤ a.towerViewHight) (hsq : a.towerXN = a.towerYN)
    (hfx : a.towerXN + a.towerViewWeight ≤ 32767) (hfy : a.towerYN + a.towerViewHight ≤ 32767) :
    a.Sound := by
  have hb := new_eq_some hnew
  refine ⟨new_regular hnew htw hth hvx hvy (fun x _ hx ↦ ?_) (fun y _ hy ↦ ?_), hsq⟩
  · have := le_towerCount_mul htw hb.towerXN
    have := Int.ediv_lt_of_lt_mul htw (show x.toInt < a.towerXN * tw by omega)
    omega
  · have := le_towerCount_mul hth hb.towerYN
    have := Int.ediv_lt_of_lt_mul hth (show y.toInt < a.towerYN * th by omega)
    omega

/-! ### Towers and the vector that stores them -/

theorem tower_mem (ha : a.Indexed) {t : Int × Int} (ht : a.InGrid t) : a.tower t ∈ a.towers := by
  have hread := towerAt_eq ha ht
  rw [towerAt, vecAt, if_pos (ha t ht).1] at hread
  exact List.mem_of_getElem? hread

/-- **A fresh manager shows the empty board**: its towers have neither watchers nor objects. -/
theorem new_represents (hnew : new w h tw th vw vh id = some a) :
    Represents a.toTowerInfo a Board.empty := by
  have hb := new_eq_some hnew
  have hempty : ∀ t, a.InGrid t → (a.tower t).objs = ∅ ∧ (a.tower t).watchers = ∅ :=
    fun t ht ↦ hb.fresh _ (tower_mem hb.indexed ht)
  refine ⟨rfl, hb.indexed, hb.length, fun t ht i ↦ ?_, fun t ht i ↦ ?_, fun i r t hi ↦ ?_⟩
  · rw [(hempty t ht).1, iff_false_intro (Board.not_at_of_none (Board.empty_apply i))]
    exact iff_false_intro Std.ExtTreeSet.not_mem_empty
  · rw [(hempty t ht).2, iff_false_intro (Board.not_watches_of_none (Board.empty_apply i))]
    exact iff_false_intro Std.ExtTreeSet.not_mem_empty
  · rw [Board.empty_apply] at hi
    exact absurd hi (by simp)

/-- On a square grid the vector holds nothing but the towers of the grid. -/
theorem exists_tower_of_mem (hsq : a.towerXN = a.towerYN)
    (hlen : (a.towers.length : Int) = a.towerXN * a.towerYN) {tower : Tower}
    (hN : 0 ≤ a.towerYN) (hmem : tower ∈ a.towers) : ∃ t, a.InGrid t ∧ a.tower t = tower := by
  obtain ⟨k, hk, rfl⟩ := List.mem_iff_getElem.1 hmem
  obtain ⟨t, ht, hid⟩ := TowerInfo.exists_towerId_eq hsq hN (show (0 : Int) ≤ k by omega)
    (show (k : Int) < a.towerXN * a.towerYN by omega)
  refine ⟨t, ht, ?_⟩
  simp only [tower, towerAt, hid, vecAt, Int.natCast_nonneg, if_true, Int.toNat_natCast,
    List.getElem?_eq_getElem hk, Option.getD_some]

/-- **An id off the board is in no set of any tower.** -/
theorem Represents.notMem_of_none {g : TowerInfo} {B : Board ObjectId (Int × Int)} {i : ObjectId}
    {tower : Tower} (h : Represents g a B) (hsq : g.towerXN = g.towerYN) (hN : 0 ≤ g.towerYN)
    (hi : B i = none) (hmem : tower ∈ a.towers) : i ∉ tower.objs ∧ i ∉ tower.watchers := by
  have hinfo := h.info
  subst hinfo
  obtain ⟨t, ht, rfl⟩ := exists_tower_of_mem hsq h.length hN hmem
  rw [h.mem_objs t ht, h.mem_watchers t ht]
  exact ⟨Board.not_at_of_none hi, Board.not_watches_of_none hi⟩

end TowerAoi

end QCLib
