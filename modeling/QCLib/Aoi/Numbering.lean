import QCLib.Aoi.Construction

/-!
# Tower numbering

`TowerId` lays the towers out row by row, but the stride it multiplies by is the number of *rows*.
Whether that numbers the grid depends on its shape. On a square grid the two counts coincide, and on
a grid of one row the stride does not matter. On every other grid either the end of the last row
falls outside `m_towers` or the end of the first row is stored where the second row begins.

`numbered_iff` says so for the whole life of a manager: its constructor returns, and every tower
that an operation on a cell of the map reads or writes has a place of its own.

The stride is a slip beside `CellId`, which multiplies by the number of columns. The condition is
said in terms of the two counts that the constructor computes (`RowsMatch`), and it is necessary as
well: where the counts differ, two towers that both exist are shown to share an index, or one of
them to have none. Since the constructor visits every tower, a grid whose last index lies outside
the vector is never built at all.
-/

open CSemantics

namespace QCLib

namespace TowerInfo

variable {g : TowerInfo}

variable (g) in
/-- The grids whose rows are as long as `TowerId` assumes, or that have one row only. -/
def RowsMatch : Prop := g.towerXN = g.towerYN ∨ g.towerYN = 1

instance : Decidable g.RowsMatch := inferInstanceAs (Decidable (_ ∨ _))

variable (g) in
/-- The loops over the window of every cell of the map reach their bounds. -/
def WindowsEnd : Prop :=
  ∀ p, g.InMap p → (g.viewTowers (g.cellToTower p)).towers.isSome

theorem Regular.windowsEnd (hg : g.Regular) : g.WindowsEnd := by
  intro p hp
  obtain ⟨ts, hts, -⟩ := exists_towers_viewTowers hg hp
  rw [hts]
  rfl

/-! ### The numbering -/

/-- **The numbering is a numbering**: on a grid with matching rows the storage indices are exactly
`0, …, towerXN * towerYN - 1`, one for each tower. -/
theorem RowsMatch.bijOn (h : g.RowsMatch) (hN : 0 ≤ g.towerYN) :
    Set.BijOn (fun t : Int × Int ↦ g.towerId t.1 t.2) {t | g.InGrid t}
      (Set.Ico 0 (g.towerXN * g.towerYN)) := by
  refine ⟨fun t ht ↦ ?_, fun s hs t ht hst ↦ ?_, fun k hk ↦ ?_⟩
  · obtain ⟨⟨hx₀, hx₁⟩, hy₀, hy₁⟩ := ht
    have hlt : t.2 * g.towerYN + t.1 < g.towerXN * g.towerYN := by
      rcases h with hsq | hone
      · have := mul_le_mul_of_nonneg_right (show t.2 + 1 ≤ g.towerXN by omega)
          (show 0 ≤ g.towerYN by omega)
        rw [add_mul] at this
        omega
      · rw [hone, show t.2 = 0 by omega]
        omega
    exact ⟨add_nonneg (mul_nonneg hy₀ (by omega)) hx₀, hlt⟩
  · rcases h with hsq | hone
    · exact towerId_injOn hsq hs ht hst
    · simp only [towerId] at hst
      obtain ⟨⟨-, -⟩, hs₀, hs₁⟩ := hs
      obtain ⟨⟨-, -⟩, ht₀, ht₁⟩ := ht
      exact Prod.ext (by rw [show s.2 = t.2 by omega] at hst; omega) (by omega)
  · obtain ⟨hk₀, hk₁⟩ := hk
    rcases h with hsq | hone
    · exact exists_towerId_eq hsq hN hk₀ hk₁
    · refine ⟨(k, 0), ⟨⟨hk₀, ?_⟩, le_rfl, by omega⟩, by simp [towerId]⟩
      rwa [hone, mul_one] at hk₁

/-- With more columns than rows, and a second row, the tower past the stride shares its index with
the first of the second row. -/
theorem towerId_collision (hN : 1 < g.towerYN) (hlt : g.towerYN < g.towerXN) :
    g.InGrid (g.towerYN, 0) ∧ g.InGrid (0, 1) ∧ g.towerId g.towerYN 0 = g.towerId 0 1 := by
  simp only [InGrid, towerId]
  omega

/-- With more rows than columns the last tower has an index beyond the towers. -/
theorem le_towerId_of_lt (hpos : 0 < g.towerXN) (hlt : g.towerXN < g.towerYN) :
    g.InGrid (g.towerXN - 1, g.towerYN - 1) ∧
      g.towerXN * g.towerYN ≤ g.towerId (g.towerXN - 1) (g.towerYN - 1) := by
  have hrows := mul_le_mul_of_nonneg_right (show g.towerXN ≤ g.towerYN - 1 by omega)
    (show 0 ≤ g.towerYN by omega)
  simp only [InGrid, towerId]
  omega

end TowerInfo

namespace TowerAoi

variable {a : TowerAoi} {w h tw th vw vh : Int} {id : MapId}

/-- Every access to a tower finds it, in a place of its own: the numbering of the grid is one-to-one
onto the places of `m_towers`, and the operations on a cell of the map stay inside the grid. -/
structure Numbered (a : TowerAoi) : Prop where
  bijOn : Set.BijOn (fun t : Int × Int ↦ a.towerId t.1 t.2) {t | a.InGrid t}
    (Set.Ico 0 (a.towerXN * a.towerYN))
  length : (a.towers.length : Int) = a.towerXN * a.towerYN
  cell : ∀ p, a.InMap p → a.InGrid (a.towerOf p)
  window : ∀ p, a.InMap p → ∃ ts, (a.viewTowers (a.cellToTower p)).towers = some ts ∧
    ∀ t ∈ ts, a.InGrid t

/-- So every access inside the grid is defined. -/
theorem Numbered.indexed (ha : a.Numbered) : a.Indexed := by
  intro t ht
  have hid := ha.bijOn.mapsTo ht
  rw [← ha.length] at hid
  exact ⟨hid.1, hid.2⟩

private theorem exists_foldlM_modifyTower {f : TowerAoi → Int × Int → Tower → Tower}
    {ts : List (Int × Int)} (ha : a.Indexed) (hts : ∀ t ∈ ts, a.InGrid t) :
    ∃ a', ts.foldlM (fun a t ↦ a.modifyTower t (f a t)) a = some a' ∧ SameShape a a' := by
  induction ts generalizing a with
  | nil => exact ⟨a, rfl, .refl a⟩
  | cons t ts ih =>
    obtain ⟨a₁, h₁⟩ := exists_modifyTower ha (hts t List.mem_cons_self) (f a t)
    have hs₁ := sameShape_of_modifyTower h₁
    obtain ⟨a', hrun, hs'⟩ := ih (hs₁.indexed ha) fun s hs ↦ by
      rw [hs₁.info]
      exact hts s (List.mem_cons_of_mem t hs)
    exact ⟨a', by rw [List.foldlM_cons, h₁]; exact hrun, hs₁.trans hs'⟩

/-- The initialisation loop is defined where every tower of the grid has its place. -/
theorem exists_initTowers (ha : a.Indexed) (hx : 0 ≤ a.towerXN) (hy : 0 ≤ a.towerYN) :
    ∃ a', a.initTowers = some a' ∧ SameShape a a' := by
  obtain ⟨ts, hts, hmem⟩ := exists_neLoops hx hy
  obtain ⟨a', hrun, hs⟩ := exists_foldlM_modifyTower (f := fun a t tower ↦
    tower.init (Point.mk32 (t.1 * a.towerWeight) (t.2 * a.towerHight)) (a.towerId t.1 t.2)) ha
    fun t ht ↦ (hmem t).1 ht
  exact ⟨a', by rw [initTowers, hts]; exact hrun, hs⟩

/-- The constructor returns on every grid with matching rows whose size fits. -/
theorem exists_new {g : TowerInfo} (hg : ofSizes w h tw th vw vh id = some g)
    (hx : 0 ≤ g.towerXN) (hy : 0 ≤ g.towerYN) (hfit : g.towerXN * g.towerYN < 2 ^ 31)
    (hrows : g.RowsMatch) :
    ∃ a, new w h tw th vw vh id = some a ∧ a.toTowerInfo = g := by
  have hsize := mul_nonneg hx hy
  have hplaces : TowerAoi.Indexed { g with
      towers := List.replicate (g.towerXN * g.towerYN).toNat default } := by
    intro t ht
    obtain ⟨h₀, h₁⟩ := (hrows.bijOn hy).mapsTo ht
    refine ⟨h₀, ?_⟩
    simp only [List.length_replicate, Int.toNat_of_nonneg hsize]
    exact h₁
  obtain ⟨a, hinit, hs⟩ := exists_initTowers hplaces hx hy
  refine ⟨a, ?_, hs.info⟩
  rw [new_eq, hg, Option.bind_some,
    int32_eq_some_iff.2 ⟨⟨by omega, hfit⟩, rfl⟩, Option.bind_some, if_neg (by omega)]
  exact hinit

/-- **Tower numbering.** For positive map and tower sizes, whatever the view, a manager is built
whose towers are numbered one-to-one and whose accesses are all in range exactly when the counts fit
`int32_t`, the windows' loops end, and the grid has as many columns as rows or a single row. -/
theorem numbered_iff (hw : 0 < w) (hh : 0 < h) (htw : 0 < tw) (hth : 0 < th) :
    (∃ a, new w h tw th vw vh id = some a ∧ a.Numbered) ↔
      ∃ g, ofSizes w h tw th vw vh id = some g ∧ g.towerXN * g.towerYN < 2 ^ 31 ∧
        g.WindowsEnd ∧ g.RowsMatch := by
  constructor
  · rintro ⟨a, hnew, ha⟩
    obtain ⟨hg, hfit, -⟩ := new_steps hnew
    have hs := ofSizes_eq_some hg
    have hx := towerCount_pos hw htw hs.towerXN
    refine ⟨a.toTowerInfo, hg, hfit, fun p hp ↦ ?_, ?_⟩
    · obtain ⟨ts, hts, -⟩ := ha.window p hp
      rw [hts]
      rfl
    · by_contra hrows
      obtain ⟨hne, hone⟩ := not_or.1 hrows
      have hy := towerCount_pos hh hth hs.towerYN
      rcases lt_or_gt_of_ne hne with hlt | hgt
      · obtain ⟨hgrid, hid⟩ := TowerInfo.le_towerId_of_lt hx hlt
        exact absurd (ha.bijOn.mapsTo hgrid).2 hid.not_gt
      · obtain ⟨hend, hnext, hid⟩ := TowerInfo.towerId_collision (by omega) hgt
        have := Prod.mk.inj (ha.bijOn.injOn hend hnext hid)
        omega
  · rintro ⟨g, hg, hfit, hwin, hrows⟩
    have hsized := ofSizes_eq_some hg
    have hx := (towerCount_pos hw htw hsized.towerXN).le
    have hy := (towerCount_pos hh hth hsized.towerYN).le
    obtain ⟨a, hnew, rfl⟩ := exists_new hg hx hy hfit hrows
    refine ⟨a, hnew, hrows.bijOn hy, (new_eq_some hnew).length,
      fun p hp ↦ (hsized.tiled htw hth).inGrid_towerOf hp, fun p hp ↦ ?_⟩
    obtain ⟨ts, hts⟩ := Option.isSome_iff_exists.1 (hwin p hp)
    exact ⟨ts, hts, fun t ht ↦ TowerInfo.inGrid_of_mem_towers hx hy hts ht⟩

/-- The map of `GameMap::TestTnit`, the only one the repository builds, is among them. -/
theorem numbered_testTnit : ∃ a, new 100 100 5 5 20 20 1 = some a ∧ a.Numbered := by
  have hsizes : ofSizes 100 100 5 5 20 20 1 = some ⟨100, 100, 20, 20, 4, 4, 20, 20, 5, 5, 1⟩ := rfl
  refine (numbered_iff (by decide) (by decide) (by decide) (by decide)).2
    ⟨_, hsizes, by decide, TowerInfo.Regular.windowsEnd ?_, .inl rfl⟩
  constructor
  case fits_x | fits_y =>
    intro x h₀ h₁
    simp only at h₁ ⊢
    omega
  all_goals decide

/-- A map of three towers by two has two towers in one place, and one of two by three is not built
at all. -/
theorem not_numbered_three_by_two :
    (∃ a, new 3 2 1 1 1 1 1 = some a ∧
      ¬ Set.InjOn (fun t : Int × Int ↦ a.towerId t.1 t.2) {t | a.InGrid t}) ∧
    new 2 3 1 1 1 1 1 = none := by
  have hsizes : ofSizes 3 2 1 1 1 1 1 = some ⟨3, 2, 1, 1, 1, 1, 3, 2, 1, 1, 1⟩ := rfl
  refine ⟨?_, rfl⟩
  obtain ⟨a, hnew⟩ := Option.isSome_iff_exists.1
    (show (new 3 2 1 1 1 1 1).isSome = true by decide)
  refine ⟨a, hnew, fun hinj ↦ ?_⟩
  have hinfo := Option.some.inj ((new_steps hnew).1.symm.trans hsizes)
  rw [hinfo] at hinj
  exact absurd (hinj (show (2, 0) ∈ _ by decide) (show (0, 1) ∈ _ by decide) rfl) (by decide)

end TowerAoi

end QCLib
