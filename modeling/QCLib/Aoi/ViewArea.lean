import QCLib.Aoi.Construction

/-!
# The view area

`ViewTowers` stores two 32-bit sums into 16-bit coordinates and clamps them afterwards. `AxisFits`
is what an axis needs for the clamps to see the sums they were written for; where it fails the low
corner starts inside the map or the high corner falls below the low one, and the loops over the area
run away (`clipped_iff`).

Where it holds the area does what it is for (`coversView_iff`): it contains the tower of every cell
in view, nothing much further, and it is symmetric. The sizes are those the constructor derives,
whatever it goes on to allocate, so the results here do not depend on the shape of the grid.

`clipped_iff` and `coversView_iff` are each an equivalence between what the area should do, for
every tower of the map, and a condition on the sizes alone. The proofs go axis by axis: the two
coordinates of `ViewTowers` are computed in the same way, so `AxisFits` is defined for one axis, and
an axis that does not fit has a tower at which the clamping is seen to fail.

`Regular` sizes fit on both axes (`CoversView.of_regular`), so the results about runs inherit the
coverage.
-/

open CSemantics

namespace QCLib

namespace TowerInfo

variable {g : TowerInfo} {p : Point}

/-! ### Clamping -/

/-- One axis of the area, for `n` towers and radius `r` around the tower `p`: the high sum fits
`int32_t`, and a sum that does not fit `int16_t` wraps to the side where its clamp still catches
it. -/
def AxisFits (n r p : Int) : Prop :=
  p + r + 1 < 2 ^ 31 ∧ (r ≤ p ∨ (r - p) % 2 ^ 16 ≤ 2 ^ 15) ∧
    (p + r + 1 < 2 ^ 15 ∨ n ≤ (p + r + 1) % 2 ^ 16 ∧ (p + r + 1) % 2 ^ 16 < 2 ^ 15)

instance (n r p : Int) : Decidable (AxisFits n r p) := inferInstanceAs (Decidable (_ ∧ _))

/-- The low corner is the clipped one exactly when the wrapped sum is not positive. -/
theorem lowCorner_iff {p r : Int} (hp₀ : 0 ≤ p) (hp₁ : p ≤ 32767) (hr : 0 ≤ r) :
    (checkMin (Int16.ofInt (p - r))).toInt = max 0 (p - r) ↔
      r ≤ p ∨ (r - p) % 2 ^ 16 ≤ 2 ^ 15 := by
  rw [toInt_checkMin, toInt_ofInt_eq]
  split_ifs <;> omega

/-- The high corner is the clipped one exactly when the wrapped sum is still beyond the last
tower. -/
theorem highCorner_iff {n s : Int} (hn : 0 < n) (hs : 0 < s) :
    (checkMax (Int16.ofInt s) n).toInt = min n s ↔
      s < 2 ^ 15 ∨ n ≤ s % 2 ^ 16 ∧ s % 2 ^ 16 < 2 ^ 15 := by
  rw [toInt_checkMax hn.le, toInt_ofInt_eq]
  split_ifs <;> omega

variable (g p) in
/-- `ViewTowers` computes the clipped square around the tower `p`, and the loops over it visit each
of its towers once. -/
structure Clipped : Prop where
  /-- The sums do not overflow `int32_t`. -/
  sums : p.x.toInt + g.towerViewWeight + 1 < 2 ^ 31 ∧ p.y.toInt + g.towerViewHight + 1 < 2 ^ 31
  leftUp : (g.viewTowers p).leftUp.toPair =
    (max 0 (p.x.toInt - g.towerViewWeight), max 0 (p.y.toInt - g.towerViewHight))
  rightDown : (g.viewTowers p).rightDown.toPair =
    (min g.towerXN (p.x.toInt + g.towerViewWeight + 1),
      min g.towerYN (p.y.toInt + g.towerViewHight + 1))
  nonempty : (g.viewTowers p).Contains p.toPair
  visits : ∃ ts, (g.viewTowers p).towers = some ts ∧ ts.Nodup ∧
    ∀ t, t ∈ ts ↔ (g.viewTowers p).Contains t

/-- The corners decide the rest: the tower itself lies between them, so the loops end. -/
theorem clipped_of_corners (hp : g.InGrid p.toPair) (hvx : 0 ≤ g.towerViewWeight)
    (hvy : 0 ≤ g.towerViewHight)
    (hsums : p.x.toInt + g.towerViewWeight + 1 < 2 ^ 31 ∧
      p.y.toInt + g.towerViewHight + 1 < 2 ^ 31)
    (hlu : (g.viewTowers p).leftUp.toPair =
      (max 0 (p.x.toInt - g.towerViewWeight), max 0 (p.y.toInt - g.towerViewHight)))
    (hrd : (g.viewTowers p).rightDown.toPair =
      (min g.towerXN (p.x.toInt + g.towerViewWeight + 1),
        min g.towerYN (p.y.toInt + g.towerViewHight + 1))) : g.Clipped p := by
  obtain ⟨hlx, hly⟩ := Prod.mk.inj hlu
  obtain ⟨hrx, hry⟩ := Prod.mk.inj hrd
  obtain ⟨⟨hx₀, hx₁⟩, hy₀, hy₁⟩ := hp
  simp only [Point.toPair] at hx₀ hx₁ hy₀ hy₁
  have hself : (g.viewTowers p).Contains p.toPair := by
    simp only [Area.Contains, Point.toPair]
    omega
  obtain ⟨ts, hts⟩ := Option.isSome_iff_exists.1
    (show (g.viewTowers p).towers.isSome from neLoops_isSome_iff.2 (by omega))
  exact ⟨hsums, hlu, hrd, hself, ts, hts, neLoops_eq_some hts⟩

variable {w h tw th vw vh : Int} {id : MapId}

/-- **View area computation.** For positive sizes and a tower of the grid, the area is the clipped
square around it, ordered and non-empty, with loops that visit each of its towers once, exactly when
both axes survive the stores into 16 bits. -/
theorem clipped_iff (hw : 0 < w) (hh : 0 < h) (htw : 0 < tw) (hth : 0 < th) (hvw : 0 < vw)
    (hvh : 0 < vh) (hg : TowerAoi.ofSizes w h tw th vw vh id = some g) (hp : g.InGrid p.toPair) :
    g.Clipped p ↔ AxisFits g.towerXN g.towerViewWeight p.x.toInt ∧
      AxisFits g.towerYN g.towerViewHight p.y.toInt := by
  have hs := TowerAoi.ofSizes_eq_some hg
  have hxn := TowerAoi.towerCount_pos hw htw hs.towerXN
  have hyn := TowerAoi.towerCount_pos hh hth hs.towerYN
  have hvx := TowerAoi.towerCount_pos hvw htw hs.towerViewWeight
  have hvy := TowerAoi.towerCount_pos hvh hth hs.towerViewHight
  have hpx : 0 ≤ p.x.toInt := hp.1.1
  have hpy : 0 ≤ p.y.toInt := hp.2.1
  have hlx := lowCorner_iff hpx p.x.toInt_le hvx.le
  have hly := lowCorner_iff hpy p.y.toInt_le hvy.le
  have hrx := highCorner_iff hxn (show 0 < p.x.toInt + g.towerViewWeight + 1 by omega)
  have hry := highCorner_iff hyn (show 0 < p.y.toInt + g.towerViewHight + 1 by omega)
  constructor
  · rintro ⟨⟨hsx, hsy⟩, hlu, hrd, -, -⟩
    obtain ⟨hlx', hly'⟩ := Prod.mk.inj hlu
    obtain ⟨hrx', hry'⟩ := Prod.mk.inj hrd
    exact ⟨⟨hsx, hlx.1 hlx', hrx.1 hrx'⟩, hsy, hly.1 hly', hry.1 hry'⟩
  · rintro ⟨⟨hsx, hlx', hrx'⟩, hsy, hly', hry'⟩
    exact clipped_of_corners hp hvx.le hvy.le ⟨hsx, hsy⟩
      (Prod.ext (hlx.2 hlx') (hly.2 hly')) (Prod.ext (hrx.2 hrx') (hry.2 hry'))

/-- Seen from the only tower of a map of one cell, a view of 32766 cells is the last to fit. -/
theorem clipped_of_view_32766 :
    ∃ g, TowerAoi.ofSizes 1 1 1 1 32766 32766 1 = some g ∧ g.Clipped ⟨0, 0⟩ := by
  have hsizes : TowerAoi.ofSizes 1 1 1 1 32766 32766 1 =
    some ⟨1, 1, 32766, 32766, 32766, 32766, 1, 1, 1, 1, 1⟩ := rfl
  exact ⟨_, hsizes, (clipped_iff (by decide) (by decide) (by decide) (by decide) (by decide)
    (by decide) hsizes (by decide)).2 (by decide)⟩

/-- A view of 32767 cells wraps the high corner below the low one, and the loops run away. -/
theorem not_clipped_of_view_32767 :
    ∃ g, TowerAoi.ofSizes 1 1 1 1 32767 32767 1 = some g ∧ g.InGrid (0, 0) ∧
      (g.viewTowers ⟨0, 0⟩).towers = none ∧ ¬ g.Clipped ⟨0, 0⟩ := by
  have hloops : (viewTowers ⟨1, 1, 32767, 32767, 32767, 32767, 1, 1, 1, 1, 1⟩ ⟨0, 0⟩).towers =
    none := rfl
  refine ⟨_, rfl, by decide, hloops, fun hclip ↦ ?_⟩
  obtain ⟨ts, hts, -⟩ := hclip.visits
  exact absurd (hts.symm.trans hloops) (by simp)

/-! ### What the area covers -/

variable (g) in
/-- The area of a cell's tower covers what is in view from the cell, and little else. -/
structure CoversView : Prop where
  covers : ∀ p q, g.InMap p → g.InMap q → |p.x.toInt - q.x.toInt| ≤ g.viewWeight →
    |p.y.toInt - q.y.toInt| ≤ g.viewHight →
    (g.viewTowers (g.cellToTower p)).Contains (g.towerOf q)
  /-- A cell of a tower in the area, whether or not the map reaches to it, is not far away. -/
  reach : ∀ p, g.InMap p → ∀ c : Int × Int,
    (g.viewTowers (g.cellToTower p)).Contains (c.1 / g.towerWeight, c.2 / g.towerHight) →
    |c.1 - p.x.toInt| ≤ g.viewWeight + 2 * g.towerWeight - 2 ∧
      |c.2 - p.y.toInt| ≤ g.viewHight + 2 * g.towerHight - 2
  symm : ∀ p q, g.InMap p → g.InMap q →
    ((g.viewTowers (g.cellToTower p)).Contains (g.towerOf q) ↔
      (g.viewTowers (g.cellToTower q)).Contains (g.towerOf p))

variable (g) in
/-- For no cell of the map does the end of the area, `32768`, wrap around. -/
def EndsFit : Prop :=
  (∀ x : Coordinate, 0 ≤ x.toInt → x.toInt < g.weight →
    x.toInt / g.towerWeight + g.towerViewWeight ≠ 32767) ∧
  ∀ y : Coordinate, 0 ≤ y.toInt → y.toInt < g.hight →
    y.toInt / g.towerHight + g.towerViewHight ≠ 32767

theorem EndsFit.regular (h : g.EndsFit) (hg : g.Tiled) (hvx : 0 ≤ g.towerViewWeight)
    (hvy : 0 ≤ g.towerViewHight) (hfx : g.towerXN - 1 + g.towerViewWeight ≤ 32767)
    (hfy : g.towerYN - 1 + g.towerViewHight ≤ 32767) : g.Regular := by
  refine ⟨hg.towerWeight_pos, hg.towerHight_pos, hg.weight_le, hg.hight_le, hvx, hvy, ?_, ?_⟩
  · intro x hx₀ hx₁
    have hle := hg.weight_le
    have hlt := Int.ediv_lt_of_lt_mul hg.towerWeight_pos
      (show x.toInt < g.towerXN * g.towerWeight by omega)
    have hne := h.1 x hx₀ hx₁
    omega
  · intro y hy₀ hy₁
    have hle := hg.hight_le
    have hlt := Int.ediv_lt_of_lt_mul hg.towerHight_pos
      (show y.toInt < g.towerYN * g.towerHight by omega)
    have hne := h.2 y hy₀ hy₁
    omega

/-- Cells that are close enough lie in towers that are. -/
theorem ediv_sub_ediv_le {p q t v r : Int} (ht : 0 < t) (hle : p - q ≤ v) (hr : v ≤ r * t) :
    p / t - q / t ≤ r := by
  have hdiv := Int.ediv_le_ediv ht (show p ≤ q + r * t by omega)
  rw [Int.add_mul_ediv_right _ _ ht.ne'] at hdiv
  omega

/-- Cells of towers that are close enough are not far away. -/
theorem sub_le_of_ediv_sub_le {p q t v r : Int} (ht : 0 < t) (hle : p / t - q / t ≤ r)
    (hr : r * t ≤ v + t - 1) : p - q ≤ v + 2 * t - 2 := by
  have hp := Int.lt_ediv_add_one_mul_self p ht
  have hq := Int.ediv_mul_le q ht.ne'
  have hmul := mul_le_mul_of_nonneg_right hle ht.le
  rw [sub_mul] at hmul
  rw [add_mul] at hp
  omega

/-- One axis of the view: positions that are near each other have towers that are near each other,
in both directions. -/
theorem abs_ediv_sub_le {p q t v r : Int} (ht : 0 < t) (hle : |p - q| ≤ v) (hr : v ≤ r * t) :
    |q / t - p / t| ≤ r := by
  rw [abs_le] at hle ⊢
  have := ediv_sub_ediv_le ht (show p - q ≤ v by omega) hr
  have := ediv_sub_ediv_le ht (show q - p ≤ v by omega) hr
  omega

/-- How far two positions can be apart when their towers are near each other. -/
theorem abs_sub_le_of_abs_ediv {p q t v r : Int} (ht : 0 < t) (hle : |p / t - q / t| ≤ r)
    (hr : r * t ≤ v + t - 1) : |p - q| ≤ v + 2 * t - 2 := by
  rw [abs_le] at hle ⊢
  have := sub_le_of_ediv_sub_le ht (show p / t - q / t ≤ r by omega) hr
  have := sub_le_of_ediv_sub_le ht (show q / t - p / t ≤ r by omega) hr
  omega

/-- **A regular map covers the view.** What is in the view is in a near tower, and what is in a near
tower is less than two towers outside the view. -/
theorem CoversView.of_regular (hg : g.Regular)
    (hvx₀ : g.viewWeight ≤ g.towerViewWeight * g.towerWeight)
    (hvx₁ : g.towerViewWeight * g.towerWeight ≤ g.viewWeight + g.towerWeight - 1)
    (hvy₀ : g.viewHight ≤ g.towerViewHight * g.towerHight)
    (hvy₁ : g.towerViewHight * g.towerHight ≤ g.viewHight + g.towerHight - 1) : g.CoversView where
  covers := by
    intro p q hp hq hx hy
    refine (contains_viewTowers hg hp).2 ⟨inGrid_towerOf hg hq, ?_⟩
    rw [towerOf_eq hg hp, towerOf_eq hg hq]
    exact ⟨abs_ediv_sub_le hg.towerWeight_pos hx hvx₀,
      abs_ediv_sub_le hg.towerHight_pos hy hvy₀⟩
  reach := by
    intro p hp c hc
    obtain ⟨-, hx, hy⟩ := (contains_viewTowers hg hp).1 hc
    rw [towerOf_eq hg hp] at hx hy
    exact ⟨abs_sub_le_of_abs_ediv hg.towerWeight_pos hx hvx₁,
      abs_sub_le_of_abs_ediv hg.towerHight_pos hy hvy₁⟩
  symm := by
    intro p q hp hq
    rw [contains_viewTowers hg hp, contains_viewTowers hg hq]
    exact ⟨fun h ↦ ⟨inGrid_towerOf hg hp, h.2.symm⟩, fun h ↦ ⟨inGrid_towerOf hg hq, h.2.symm⟩⟩

/-- A high sum of `32768` wraps, and then the axis has no tower at all. -/
theorem checkMax_wrapped {n t r : Int} (hn : 0 ≤ n) (hend : t + r = 32767) :
    (checkMax (Int16.ofInt (t + r + 1)) n).toInt < 0 := by
  rw [hend, toInt_checkMax hn, toInt_ofInt_eq, if_neg (by decide)]
  omega

/-- **The tower window covers the view distance.** For positive sizes whose tower indices plus view
radius fit `int16_t`, the area of a cell's tower covers the view from it, reaches no further than
one tower beyond on each side, and is symmetric exactly when no cell's area ends at `32768`. -/
theorem coversView_iff (hw : 0 < w) (hh : 0 < h) (htw : 0 < tw) (hth : 0 < th) (hvw : 0 < vw)
    (hvh : 0 < vh) (hg : TowerAoi.ofSizes w h tw th vw vh id = some g)
    (hfx : g.towerXN - 1 + g.towerViewWeight ≤ 32767)
    (hfy : g.towerYN - 1 + g.towerViewHight ≤ 32767) : g.CoversView ↔ g.EndsFit := by
  have hs := TowerAoi.ofSizes_eq_some hg
  have hxn := TowerAoi.towerCount_pos hw htw hs.towerXN
  have hyn := TowerAoi.towerCount_pos hh hth hs.towerYN
  have ht := hs.tiled htw hth
  constructor
  · intro hcov
    have hself : ∀ p, g.InMap p → (g.viewTowers (g.cellToTower p)).Contains (g.towerOf p) := by
      intro p hp
      refine hcov.covers p p hp hp ?_ ?_
      · rw [sub_self, abs_zero, hs.viewWeight]
        exact hvw.le
      · rw [sub_self, abs_zero, hs.viewHight]
        exact hvh.le
    have hzero : (0 : Coordinate).toInt = 0 := by decide
    constructor
    · intro x hx₀ hx₁ hend
      have hp : g.InMap ⟨x, 0⟩ := ⟨⟨hx₀, hx₁⟩, hzero.ge, by rw [hs.hight, hzero]; exact hh⟩
      have htower : (g.cellToTower ⟨x, 0⟩).x.toInt = x.toInt / g.towerWeight :=
        congrArg Prod.fst (ht.towerOf_eq hp)
      obtain ⟨⟨-, hlt⟩, -⟩ := hself _ hp
      have hneg := checkMax_wrapped hxn.le hend
      rw [← htower] at hneg
      exact absurd (hlt.trans hneg) (ht.inGrid_towerOf hp).1.1.not_gt
    · intro y hy₀ hy₁ hend
      have hp : g.InMap ⟨0, y⟩ := ⟨⟨hzero.ge, by rw [hs.weight, hzero]; exact hw⟩, hy₀, hy₁⟩
      have htower : (g.cellToTower ⟨0, y⟩).y.toInt = y.toInt / g.towerHight :=
        congrArg Prod.snd (ht.towerOf_eq hp)
      obtain ⟨-, -, hlt⟩ := hself _ hp
      have hneg := checkMax_wrapped hyn.le hend
      rw [← htower] at hneg
      exact absurd (hlt.trans hneg) (ht.inGrid_towerOf hp).2.1.not_gt
  · intro hend
    exact .of_regular (hend.regular ht (TowerAoi.towerCount_pos hvw htw hs.towerViewWeight).le
        (TowerAoi.towerCount_pos hvh hth hs.towerViewHight).le hfx hfy)
      (by rw [hs.viewWeight, hs.towerWeight]; exact TowerAoi.le_towerCount_mul htw
            hs.towerViewWeight)
      (by rw [hs.viewWeight, hs.towerWeight]; exact TowerAoi.towerCount_mul_le hvw htw
            hs.towerViewWeight)
      (by rw [hs.viewHight, hs.towerHight]; exact TowerAoi.le_towerCount_mul hth
            hs.towerViewHight)
      (by rw [hs.viewHight, hs.towerHight]; exact TowerAoi.towerCount_mul_le hvh hth
            hs.towerViewHight)

/-- On the map of `GameMap::TestTnit` every area does its job. -/
theorem coversView_testTnit :
    ∃ g, TowerAoi.ofSizes 100 100 5 5 20 20 1 = some g ∧ g.CoversView := by
  have hsizes : TowerAoi.ofSizes 100 100 5 5 20 20 1 =
    some ⟨100, 100, 20, 20, 4, 4, 20, 20, 5, 5, 1⟩ := rfl
  refine ⟨_, hsizes, (coversView_iff (by decide) (by decide) (by decide) (by decide) (by decide)
    (by decide) hsizes (by decide) (by decide)).2 ⟨?_, ?_⟩⟩
  · intro x hx₀ hx₁
    simp only at hx₁ ⊢
    omega
  · intro y hy₀ hy₁
    simp only at hy₁ ⊢
    omega

/-- With a single tower and a radius of 32767, the largest that fits, the area of a cell does not
contain the tower of that very cell. -/
theorem not_coversView_of_view_32767 :
    ∃ g, TowerAoi.ofSizes 1 1 1 1 32767 32767 1 = some g ∧
      g.towerXN - 1 + g.towerViewWeight ≤ 32767 ∧ g.towerYN - 1 + g.towerViewHight ≤ 32767 ∧
      g.InMap ⟨0, 0⟩ ∧ ¬ (g.viewTowers (g.cellToTower ⟨0, 0⟩)).Contains (g.towerOf ⟨0, 0⟩) := by
  refine ⟨_, rfl, by decide, by decide, by decide, ?_⟩
  rintro ⟨⟨-, hlt⟩, -⟩
  exact absurd hlt (by decide)

end TowerInfo

end QCLib
