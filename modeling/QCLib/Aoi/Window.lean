import QCLib.Aoi.TowerAoi

/-!
# Cells, towers and windows, as integers

Where the 16-bit arithmetic of `CellToTower` and `ViewTowers` does not wrap, a cell's tower is the
quotient of its coordinates and the window of a tower is the clipped square of radius
`towerViewWeight` by `towerViewHight` around it. `Regular` collects what that takes; everything
later uses the two descriptions (`toPair_cellToTower`, `exists_towers_viewTowers`) and never the
machine arithmetic.

The storage index of a tower is a separate matter: `towerId` multiplies by the number of *rows*, so
distinct towers have distinct indices when the grid is square (`towerId_injOn`).

The chain of conditions, from strong to weak: `Regular` says that no sum on the way to a window
wraps, `Tiled` that the grid covers the map, and `InGrid` and `InMap` are about one tower and one
cell. `Near` is the window relation, symmetric, and reflexive on regular sizes, and is the instance
of the abstract relation of `Foundations.Interest`.
-/

open CSemantics

namespace QCLib

/-! ### Truncation to 16 bits -/

/-- The value a coordinate holds after a store. -/
theorem toInt_ofInt_eq (v : Int) :
    (Int16.ofInt v).toInt = if v % 65536 < 32768 then v % 65536 else v % 65536 - 65536 := by
  rw [Int16.toInt_ofInt, Int.bmod_def]
  rfl

/-- Below the range a store can only raise a value, above it only lower one. -/
theorem le_toInt_ofInt {v : Int} (h : v ≤ 32767) : v ≤ (Int16.ofInt v).toInt := by
  rw [toInt_ofInt_eq]
  split_ifs <;> omega

/-- Narrowing to 16 bits never makes a number larger, from the least 16-bit number on. -/
theorem toInt_ofInt_le {v : Int} (h : -32768 ≤ v) : (Int16.ofInt v).toInt ≤ v := by
  rw [toInt_ofInt_eq]
  split_ifs <;> omega

/-- The result of storing an in-range value into a coordinate. -/
theorem toInt_ofInt_of_fits {v : Int} (h₀ : -32768 ≤ v) (h₁ : v ≤ 32767) :
    (Int16.ofInt v).toInt = v :=
  Int16.toInt_ofInt_of_le (by omega) (by omega)

theorem Coordinate.toInt_le (c : Coordinate) : c.toInt ≤ 32767 := by
  have := c.toInt_lt
  omega

/-- The pair lies in the half-open rectangle. -/
def Area.Contains (area : Area) (t : Int × Int) : Prop :=
  (area.leftUp.x.toInt ≤ t.1 ∧ t.1 < area.rightDown.x.toInt) ∧
    area.leftUp.y.toInt ≤ t.2 ∧ t.2 < area.rightDown.y.toInt

namespace TowerInfo

theorem toInt_checkMin (v : Coordinate) : (checkMin v).toInt = max 0 v.toInt := by
  have hzero : (0 : Int16).toInt = 0 := by decide
  have hneg : v < 0 ↔ v.toInt < 0 := by rw [Int16.lt_iff_toInt_lt, hzero]
  unfold checkMin
  split_ifs with h
  · have := hneg.1 h
    rw [hzero]
    omega
  · have := mt hneg.2 h
    omega

/-- `CheckMax` is a minimum, as long as the bound is not negative. -/
theorem toInt_checkMax {m : Int} (hm : 0 ≤ m) (v : Coordinate) :
    (checkMax v m).toInt = min m v.toInt := by
  have hmax := v.toInt_le
  unfold checkMax
  split_ifs with h
  · rw [toInt_ofInt_of_fits (by omega) (by omega)]
    omega
  · omega

variable (g : TowerInfo)

/-! ### The map, the grid and the window relation -/

/-- The cell lies inside the map. -/
def InMap (p : Point) : Prop :=
  (0 ≤ p.x.toInt ∧ p.x.toInt < g.weight) ∧ 0 ≤ p.y.toInt ∧ p.y.toInt < g.hight

/-- The tower coordinates lie inside the tower grid. -/
def InGrid (t : Int × Int) : Prop :=
  (0 ≤ t.1 ∧ t.1 < g.towerXN) ∧ 0 ≤ t.2 ∧ t.2 < g.towerYN

/-- The tower `t` lies in the window of the tower `s`. -/
def Near (s t : Int × Int) : Prop :=
  |t.1 - s.1| ≤ g.towerViewWeight ∧ |t.2 - s.2| ≤ g.towerViewHight

/-- The tower of a cell, as a pair of integers. -/
def towerOf (p : Point) : Int × Int := (g.cellToTower p).toPair

instance (p : Point) : Decidable (g.InMap p) := inferInstanceAs (Decidable (_ ∧ _))

instance (t : Int × Int) : Decidable (g.InGrid t) := inferInstanceAs (Decidable (_ ∧ _))

instance (s t : Int × Int) : Decidable (g.Near s t) := inferInstanceAs (Decidable (_ ∧ _))

variable {g}

theorem Near.symm {s t : Int × Int} (h : g.Near s t) : g.Near t s := by
  obtain ⟨hx, hy⟩ := h
  exact ⟨by rwa [abs_sub_comm] at hx, by rwa [abs_sub_comm] at hy⟩

variable (g) in
/-- The sizes for which the machine arithmetic computes what it should: towers of positive size
that cover the map, and windows whose bounds stay below `2 ^ 15` for every tower a cell of the map
can lie in. -/
structure Regular : Prop where
  towerWeight_pos : 0 < g.towerWeight
  towerHight_pos : 0 < g.towerHight
  weight_le : g.weight ≤ g.towerXN * g.towerWeight
  hight_le : g.hight ≤ g.towerYN * g.towerHight
  towerViewWeight_nonneg : 0 ≤ g.towerViewWeight
  towerViewHight_nonneg : 0 ≤ g.towerViewHight
  fits_x : ∀ x : Coordinate, 0 ≤ x.toInt → x.toInt < g.weight →
    x.toInt / g.towerWeight + g.towerViewWeight < 32767
  fits_y : ∀ y : Coordinate, 0 ≤ y.toInt → y.toInt < g.hight →
    y.toInt / g.towerHight + g.towerViewHight < 32767

theorem Regular.near_refl (hg : g.Regular) (t : Int × Int) : g.Near t t := by
  have := hg.towerViewWeight_nonneg
  have := hg.towerViewHight_nonneg
  simp only [Near, sub_self, abs_zero]
  omega

variable (g) in
/-- Towers of positive size that cover the map. -/
structure Tiled : Prop where
  towerWeight_pos : 0 < g.towerWeight
  towerHight_pos : 0 < g.towerHight
  weight_le : g.weight ≤ g.towerXN * g.towerWeight
  hight_le : g.hight ≤ g.towerYN * g.towerHight

theorem Regular.tiled (hg : g.Regular) : g.Tiled :=
  ⟨hg.towerWeight_pos, hg.towerHight_pos, hg.weight_le, hg.hight_le⟩

/-- One coordinate of `CellToTower`. -/
private theorem toInt_tdiv {c : Coordinate} {t : Int} (ht : 0 < t) (hc : 0 ≤ c.toInt) :
    (Int16.ofInt (c.toInt.tdiv t)).toInt = c.toInt / t := by
  have hle : c.toInt / t ≤ c.toInt := Int.ediv_le_self t hc
  have hmax := c.toInt_le
  rw [Int.tdiv_eq_ediv_of_nonneg hc]
  exact toInt_ofInt_of_fits (by have := Int.ediv_nonneg hc ht.le; omega) (by omega)

/-- **The tower of a cell of the map** is the quotient of its coordinates. -/
theorem Tiled.towerOf_eq (hg : g.Tiled) {p : Point} (hp : g.InMap p) :
    g.towerOf p = (p.x.toInt / g.towerWeight, p.y.toInt / g.towerHight) := by
  simp only [towerOf, cellToTower, Point.mk32, Point.toPair, Prod.mk.injEq]
  exact ⟨toInt_tdiv hg.towerWeight_pos hp.1.1, toInt_tdiv hg.towerHight_pos hp.2.1⟩

private theorem ediv_lt_of_covers {c n t w : Int} (ht : 0 < t) (hc : c < w) (hw : w ≤ n * t) :
    c / t < n :=
  Int.ediv_lt_of_lt_mul ht (by omega)

theorem Tiled.inGrid_towerOf (hg : g.Tiled) {p : Point} (hp : g.InMap p) :
    g.InGrid (g.towerOf p) := by
  rw [hg.towerOf_eq hp]
  exact ⟨⟨Int.ediv_nonneg hp.1.1 hg.towerWeight_pos.le,
      ediv_lt_of_covers hg.towerWeight_pos hp.1.2 hg.weight_le⟩,
    Int.ediv_nonneg hp.2.1 hg.towerHight_pos.le,
    ediv_lt_of_covers hg.towerHight_pos hp.2.2 hg.hight_le⟩

/-- On a regular map, the coordinates are divided by the size of a tower, and no narrowing is
noticed. -/
theorem towerOf_eq (hg : g.Regular) {p : Point} (hp : g.InMap p) :
    g.towerOf p = (p.x.toInt / g.towerWeight, p.y.toInt / g.towerHight) :=
  hg.tiled.towerOf_eq hp

theorem inGrid_towerOf (hg : g.Regular) {p : Point} (hp : g.InMap p) : g.InGrid (g.towerOf p) :=
  hg.tiled.inGrid_towerOf hp

/-- The corners of the window of a cell's tower. -/
theorem toPair_viewTowers (hg : g.Regular) {p : Point} (hp : g.InMap p) :
    let t := g.towerOf p
    let area := g.viewTowers (g.cellToTower p)
    area.leftUp.toPair = (max 0 (t.1 - g.towerViewWeight), max 0 (t.2 - g.towerViewHight)) ∧
      area.rightDown.toPair =
        (min g.towerXN (t.1 + g.towerViewWeight + 1),
         min g.towerYN (t.2 + g.towerViewHight + 1)) := by
  intro t area
  have htx : (g.cellToTower p).x.toInt = t.1 := rfl
  have hty : (g.cellToTower p).y.toInt = t.2 := rfl
  have hgrid : g.InGrid t := inGrid_towerOf hg hp
  have hx := hg.fits_x p.x hp.1.1 hp.1.2
  have hy := hg.fits_y p.y hp.2.1 hp.2.2
  have ht : t = (p.x.toInt / g.towerWeight, p.y.toInt / g.towerHight) := towerOf_eq hg hp
  have hvx := hg.towerViewWeight_nonneg
  have hvy := hg.towerViewHight_nonneg
  obtain ⟨⟨h₁, h₂⟩, h₃, h₄⟩ := hgrid
  rw [show p.x.toInt / g.towerWeight = t.1 by rw [ht]] at hx
  rw [show p.y.toInt / g.towerHight = t.2 by rw [ht]] at hy
  simp only [Point.toPair, area, viewTowers, htx, hty]
  rw [toInt_checkMin, toInt_checkMin, toInt_checkMax (by omega), toInt_checkMax (by omega),
    toInt_ofInt_of_fits (by omega) (by omega), toInt_ofInt_of_fits (by omega) (by omega),
    toInt_ofInt_of_fits (by omega) (by omega), toInt_ofInt_of_fits (by omega) (by omega)]
  exact ⟨rfl, rfl⟩

/-- **The window of a cell's tower** contains exactly the towers of the grid near it. -/
theorem contains_viewTowers (hg : g.Regular) {p : Point} (hp : g.InMap p) {t : Int × Int} :
    (g.viewTowers (g.cellToTower p)).Contains t ↔ g.InGrid t ∧ g.Near (g.towerOf p) t := by
  obtain ⟨hlu, hrd⟩ := toPair_viewTowers hg hp
  obtain ⟨hlx, hly⟩ := Prod.mk.inj hlu
  obtain ⟨hrx, hry⟩ := Prod.mk.inj hrd
  rw [Area.Contains, hlx, hly, hrx, hry]
  simp only [InGrid, Near, abs_le]
  omega

/-- The loops over the window are defined, and visit what it contains. -/
theorem exists_towers_viewTowers (hg : g.Regular) {p : Point} (hp : g.InMap p) :
    ∃ l, (g.viewTowers (g.cellToTower p)).towers = some l ∧
      ∀ t, t ∈ l ↔ g.InGrid t ∧ g.Near (g.towerOf p) t := by
  have hself := (contains_viewTowers hg hp).2 ⟨inGrid_towerOf hg hp, hg.near_refl _⟩
  obtain ⟨⟨hx₀, hx₁⟩, hy₀, hy₁⟩ := hself
  obtain ⟨l, hl, hmem⟩ := exists_neLoops (hx₀.trans hx₁.le) (hy₀.trans hy₁.le)
  exact ⟨l, hl, fun t ↦ (hmem t).trans (contains_viewTowers hg hp)⟩

/-- Cut or not, the loops over a window stay inside the grid. -/
theorem inGrid_of_mem_towers {p : Point} {ts : List (Int × Int)} (hx : 0 ≤ g.towerXN)
    (hy : 0 ≤ g.towerYN) (hts : (g.viewTowers p).towers = some ts) {t : Int × Int} (ht : t ∈ ts) :
    g.InGrid t := by
  have hmem := ((neLoops_eq_some hts).2 t).1 ht
  simp only [viewTowers, toInt_checkMin, toInt_checkMax hx, toInt_checkMax hy] at hmem
  simp only [InGrid]
  omega

/-- Cut or not, they stay near the tower they are around. -/
theorem near_of_mem_towers {p : Point} {ts : List (Int × Int)} (hx : 0 ≤ g.towerXN)
    (hy : 0 ≤ g.towerYN) (hvx : 0 ≤ g.towerViewWeight) (hvy : 0 ≤ g.towerViewHight)
    (hp : g.InGrid p.toPair) (hts : (g.viewTowers p).towers = some ts) {t : Int × Int}
    (ht : t ∈ ts) : g.Near p.toPair t := by
  have hmem := ((neLoops_eq_some hts).2 t).1 ht
  have hpx := p.x.toInt_le
  have hpy := p.y.toInt_le
  obtain ⟨⟨hpx₀, -⟩, hpy₀, -⟩ := hp
  simp only [Point.toPair] at hpx₀ hpy₀
  have hlx := le_toInt_ofInt (show p.x.toInt - g.towerViewWeight ≤ 32767 by omega)
  have hly := le_toInt_ofInt (show p.y.toInt - g.towerViewHight ≤ 32767 by omega)
  have hrx := toInt_ofInt_le (show -32768 ≤ p.x.toInt + g.towerViewWeight + 1 by omega)
  have hry := toInt_ofInt_le (show -32768 ≤ p.y.toInt + g.towerViewHight + 1 by omega)
  simp only [viewTowers, toInt_checkMin, toInt_checkMax hx, toInt_checkMax hy] at hmem
  simp only [Near, Point.toPair, abs_le]
  omega

/-! ### Storage indices -/

/-- **On a square grid distinct towers are stored apart.** -/
theorem towerId_injOn (hsq : g.towerXN = g.towerYN) {s t : Int × Int} (hs : g.InGrid s)
    (ht : g.InGrid t) (h : g.towerId s.1 s.2 = g.towerId t.1 t.2) : s = t := by
  obtain ⟨⟨hs₁, hs₂⟩, -, -⟩ := hs
  obtain ⟨⟨ht₁, ht₂⟩, -, -⟩ := ht
  rw [hsq] at hs₂ ht₂
  have hN : g.towerYN ≠ 0 := by omega
  have hcoord : ∀ x y : Int, 0 ≤ x → x < g.towerYN →
      (y * g.towerYN + x) % g.towerYN = x ∧ (y * g.towerYN + x) / g.towerYN = y := by
    intro x y h₀ h₁
    rw [Int.add_comm, Int.add_mul_emod_self_right, Int.emod_eq_of_lt h₀ h₁,
      Int.add_mul_ediv_right _ _ hN, Int.ediv_eq_zero_of_lt h₀ h₁]
    simp
  have hsc := hcoord s.1 s.2 hs₁ hs₂
  have htc := hcoord t.1 t.2 ht₁ ht₂
  simp only [towerId] at h
  rw [h] at hsc
  exact Prod.ext (hsc.1.symm.trans htc.1) (hsc.2.symm.trans htc.2)

/-- On a square grid every number below theirs is the index of a tower. -/
theorem exists_towerId_eq (hsq : g.towerXN = g.towerYN) (hN : 0 ≤ g.towerYN) {k : Int}
    (hk₀ : 0 ≤ k) (hk₁ : k < g.towerXN * g.towerYN) :
    ∃ t, g.InGrid t ∧ g.towerId t.1 t.2 = k := by
  rw [hsq] at hk₁
  have hpos : 0 < g.towerYN := by
    rcases hN.lt_or_eq with hlt | heq
    · exact hlt
    · rw [← heq] at hk₁
      omega
  have hmod := Int.emod_lt_of_pos k hpos
  have hmod₀ := Int.emod_nonneg k hpos.ne'
  have hdiv := Int.ediv_lt_of_lt_mul hpos hk₁
  have hdiv₀ := Int.ediv_nonneg hk₀ hpos.le
  refine ⟨(k % g.towerYN, k / g.towerYN), ⟨⟨hmod₀, by rw [hsq]; exact hmod⟩, hdiv₀, hdiv⟩, ?_⟩
  rw [towerId, Int.mul_comm]
  exact Int.mul_ediv_add_emod k g.towerYN

end TowerInfo

end QCLib
