import QCLib.Aoi.Window

/-!
# Reading and writing towers

The store `m_towers` as a function of tower coordinates. `Indexed` says that every tower of the grid
has a place in the vector, which makes each access of an operation defined; on a square grid the
places are distinct as well, and then an update of one tower is seen at that tower only
(`tower_modifyTower`). The window loop is the one derived operation: `exists_areaLoop` says that it
is defined, `tower_areaLoop` what it does to every tower.

No operation changes the sizes or the number of towers (`SameShape`).

An update at a tower is an update of a list at an index. The two facts that make it one of a
function on coordinates are that the index exists (`Indexed`) and that it belongs to one tower only,
which is where the square grid is used; the first is enough for everything to be defined. The window
loop is a fold of such updates, and is treated as one operation from here on.
-/

open CSemantics

namespace QCLib

namespace TowerAoi

variable {a a' a₁ a₂ : TowerAoi} {f : Tower → Tower} {t : Int × Int}

/-- The tower at the given coordinates. -/
def tower (a : TowerAoi) (t : Int × Int) : Tower := (a.towerAt t).getD default

/-- Every tower of the grid is stored in the vector. -/
def Indexed (a : TowerAoi) : Prop :=
  ∀ t, a.InGrid t → 0 ≤ a.towerId t.1 t.2 ∧ a.towerId t.1 t.2 < a.towers.length

/-- The sizes and the number of towers are the same. -/
structure SameShape (a a' : TowerAoi) : Prop where
  info : a'.toTowerInfo = a.toTowerInfo
  length : a'.towers.length = a.towers.length

@[refl] theorem SameShape.refl (a : TowerAoi) : SameShape a a := ⟨rfl, rfl⟩

theorem SameShape.trans (h : SameShape a a₁) (h' : SameShape a₁ a₂) : SameShape a a₂ :=
  ⟨h'.info.trans h.info, h'.length.trans h.length⟩

/-- Whether the indices of the towers are in the vector is a matter of the shape. -/
theorem SameShape.indexed (h : SameShape a a') (ha : a.Indexed) : a'.Indexed := by
  intro t ht
  rw [h.info] at ht
  rw [h.length, h.info]
  exact ha t ht

/-! ### One tower -/

theorem towerAt_eq (ha : a.Indexed) (ht : a.InGrid t) : a.towerAt t = some (a.tower t) := by
  obtain ⟨h₀, h₁⟩ := ha t ht
  obtain ⟨x, hx⟩ := exists_vecAt h₀ h₁
  simp [tower, towerAt, hx]

/-- Changing a tower is defined exactly when its index is in the vector. -/
theorem modifyTower_eq_some_iff :
    a.modifyTower t f = some a' ↔
      (0 ≤ a.towerId t.1 t.2 ∧ a.towerId t.1 t.2 < a.towers.length) ∧
        a' = { a with towers := a.towers.modify (a.towerId t.1 t.2).toNat f } := by
  simp only [modifyTower, Option.map_eq_some_iff, vecModify_eq_some_iff]
  constructor
  · rintro ⟨v, ⟨hb, rfl⟩, rfl⟩
    exact ⟨hb, rfl⟩
  · rintro ⟨hb, rfl⟩
    exact ⟨_, ⟨hb, rfl⟩, rfl⟩

theorem sameShape_of_modifyTower (h : a.modifyTower t f = some a') : SameShape a a' := by
  obtain ⟨-, rfl⟩ := modifyTower_eq_some_iff.1 h
  exact ⟨rfl, List.length_modify ..⟩

theorem exists_modifyTower (ha : a.Indexed) (ht : a.InGrid t) (f : Tower → Tower) :
    ∃ a', a.modifyTower t f = some a' :=
  ⟨_, modifyTower_eq_some_iff.2 ⟨ha t ht, rfl⟩⟩

/-- **An update is seen at its own tower only**, on a square grid. -/
theorem tower_modifyTower (hsq : a.towerXN = a.towerYN) (ha : a.Indexed) (ht : a.InGrid t)
    (h : a.modifyTower t f = some a') {s : Int × Int} (hs : a.InGrid s) :
    a'.tower s = if s = t then f (a.tower s) else a.tower s := by
  have hread : a.towerAt s = some (a.tower s) := towerAt_eq ha hs
  obtain ⟨⟨h₀, h₁⟩, rfl⟩ := modifyTower_eq_some_iff.1 h
  have hid : a.towerId s.1 s.2 = a.towerId t.1 t.2 ↔ s = t :=
    ⟨TowerInfo.towerId_injOn hsq hs ht, fun hst ↦ by rw [hst]⟩
  have hafter : TowerAoi.towerAt
      { a with towers := a.towers.modify (a.towerId t.1 t.2).toNat f } s =
      if s = t then (a.towerAt s).map f else a.towerAt s := by
    simp only [towerAt, vecAt_modify h₀, hid]
  rw [tower, hafter, hread]
  split_ifs <;> rfl

/-! ### The window loop -/

/-- Visiting a tower of the grid changes its watchers and adds its objects to the set. -/
theorem visitTower_eq (ha : a.Indexed) (ht : a.InGrid t) (g : ObjectSet → ObjectSet)
    (objs : ObjectSet) :
    ∃ a', a.modifyTower t (fun tower ↦ { tower with watchers := g tower.watchers }) = some a' ∧
      visitTower g (a, objs) t = some (a', objs ∪ (a.tower t).objs) := by
  obtain ⟨a', ha'⟩ := exists_modifyTower ha ht fun tower ↦
    { tower with watchers := g tower.watchers }
  exact ⟨a', ha', by simp [visitTower, towerAt_eq ha ht, ha']⟩

private theorem exists_foldlM_visitTower (g : ObjectSet → ObjectSet) {ts : List (Int × Int)}
    (ha : a.Indexed) (hts : ∀ t ∈ ts, a.InGrid t) (objs : ObjectSet) :
    ∃ a' objs', ts.foldlM (visitTower g) (a, objs) = some (a', objs') ∧ SameShape a a' := by
  induction ts generalizing a objs with
  | nil => exact ⟨a, objs, rfl, .refl a⟩
  | cons t ts ih =>
    obtain ⟨a₁, h₁, hvisit⟩ := visitTower_eq ha (hts t List.mem_cons_self) g objs
    have hs₁ := sameShape_of_modifyTower h₁
    obtain ⟨a', objs', hrun, hs'⟩ := ih (hs₁.indexed ha)
      (fun s hs ↦ by rw [hs₁.info]; exact hts s (List.mem_cons_of_mem t hs))
      (objs ∪ (a.tower t).objs)
    exact ⟨a', objs', by rw [List.foldlM_cons, hvisit]; exact hrun, hs₁.trans hs'⟩

/-- What the loop does over a list of towers: their watchers are updated, their objects collected. A
tower may occur twice since the update is idempotent. -/
private theorem tower_foldlM_visitTower {g : ObjectSet → ObjectSet} (hg : ∀ w, g (g w) = g w)
    {ts : List (Int × Int)} (hsq : a.towerXN = a.towerYN) (ha : a.Indexed)
    (hts : ∀ t ∈ ts, a.InGrid t) {objs objs' : ObjectSet}
    (h : ts.foldlM (visitTower g) (a, objs) = some (a', objs')) :
    (∀ s, a.InGrid s → (a'.tower s).objs = (a.tower s).objs ∧
      (a'.tower s).watchers = if s ∈ ts then g (a.tower s).watchers else (a.tower s).watchers) ∧
      ∀ i, i ∈ objs' ↔ i ∈ objs ∨ ∃ s ∈ ts, i ∈ (a.tower s).objs := by
  induction ts generalizing a objs with
  | nil =>
    obtain ⟨rfl, rfl⟩ := Prod.mk.inj (Option.some.inj h)
    simp
  | cons t ts ih =>
    have ht := hts t List.mem_cons_self
    have hts' : ∀ s ∈ ts, a.InGrid s := fun s hs ↦ hts s (List.mem_cons_of_mem t hs)
    obtain ⟨a₁, h₁, hvisit⟩ := visitTower_eq ha ht g objs
    have hs₁ := sameShape_of_modifyTower h₁
    rw [List.foldlM_cons, hvisit] at h
    have hinfo : a₁.InGrid = a.InGrid := by rw [hs₁.info]
    obtain ⟨htower, hobjs⟩ := ih (by rw [hs₁.info]; exact hsq) (hs₁.indexed ha)
      (by rw [hinfo]; exact hts') h
    rw [hinfo] at htower
    -- The first visit, read back at every tower.
    have hfirst : ∀ s, a.InGrid s → (a₁.tower s).objs = (a.tower s).objs ∧
        (a₁.tower s).watchers = if s = t then g (a.tower s).watchers else (a.tower s).watchers := by
      intro s hs
      rw [tower_modifyTower hsq ha ht h₁ hs]
      split_ifs <;> exact ⟨rfl, rfl⟩
    constructor
    · intro s hs
      rw [(htower s hs).1, (htower s hs).2, (hfirst s hs).1, (hfirst s hs).2]
      refine ⟨rfl, ?_⟩
      by_cases hst : s = t <;> by_cases hmem : s ∈ ts <;> simp [hst, hmem, hg]
    · intro i
      rw [hobjs, Std.ExtTreeSet.mem_union_iff, or_assoc]
      simp only [List.mem_cons, exists_eq_or_imp]
      refine or_congr_right (or_congr_right ⟨?_, ?_⟩)
      · rintro ⟨s, hs, hi⟩
        exact ⟨s, hs, (hfirst s (hts' s hs)).1 ▸ hi⟩
      · rintro ⟨s, hs, hi⟩
        exact ⟨s, hs, (hfirst s (hts' s hs)).1 ▸ hi⟩

/-- The window loop is defined over every area whose loops end inside the grid. -/
theorem exists_areaLoop_of_towers (ha : a.Indexed) {area : Area} {ts : List (Int × Int)}
    (hts : area.towers = some ts) (hgrid : ∀ t ∈ ts, a.InGrid t) (g : ObjectSet → ObjectSet)
    (objs : ObjectSet) :
    ∃ a₂ objs', a.areaLoop area g objs = some (a₂, objs') ∧ SameShape a a₂ := by
  obtain ⟨a₂, objs', hrun, hs₂⟩ := exists_foldlM_visitTower g ha hgrid objs
  exact ⟨a₂, objs', by simp [areaLoop, hts, hrun], hs₂⟩

/-- What it does there: the watchers of the towers it visits are updated, everything else is left
alone, and the objects of those towers are collected. -/
theorem tower_areaLoop_of_towers {g : ObjectSet → ObjectSet} (hg : ∀ w, g (g w) = g w)
    (hsq : a.towerXN = a.towerYN) (ha : a.Indexed) {area : Area} {ts : List (Int × Int)}
    (hts : area.towers = some ts) (hgrid : ∀ t ∈ ts, a.InGrid t) {objs objs' : ObjectSet}
    (h : a.areaLoop area g objs = some (a₂, objs')) :
    (∀ t, a.InGrid t → (a₂.tower t).objs = (a.tower t).objs ∧
      (a₂.tower t).watchers = if t ∈ ts then g (a.tower t).watchers else (a.tower t).watchers) ∧
      ∀ i, i ∈ objs' ↔ i ∈ objs ∨ ∃ t ∈ ts, i ∈ (a.tower t).objs := by
  simp only [areaLoop, hts, Option.bind_eq_bind, Option.bind_some] at h
  exact tower_foldlM_visitTower hg hsq ha hgrid h

/-- **The window loop is defined** for the window of a cell of the map. -/
theorem exists_areaLoop (hr : a.Regular) (ha : a.Indexed) {p : Point} (hp : a.InMap p)
    (hs : SameShape a a₁) (g : ObjectSet → ObjectSet) (objs : ObjectSet) :
    ∃ a₂ objs', a₁.areaLoop (a.viewTowers (a.cellToTower p)) g objs = some (a₂, objs') ∧
      SameShape a a₂ := by
  obtain ⟨ts, hts, hmem⟩ := TowerInfo.exists_towers_viewTowers hr hp
  obtain ⟨a₂, objs', hrun, hs₂⟩ := exists_areaLoop_of_towers (hs.indexed ha) hts
    (fun t ht ↦ by rw [hs.info]; exact ((hmem t).1 ht).1) g objs
  exact ⟨a₂, objs', hrun, hs.trans hs₂⟩

/-- **What the window loop does**: the watchers near the cell's tower are updated, everything else
is left alone, and the objects near it are collected. -/
theorem tower_areaLoop {g : ObjectSet → ObjectSet} (hg : ∀ w, g (g w) = g w) (hr : a.Regular)
    (hsq : a.towerXN = a.towerYN) (ha : a.Indexed) {p : Point} (hp : a.InMap p)
    (hs : SameShape a a₁) {objs objs' : ObjectSet}
    (h : a₁.areaLoop (a.viewTowers (a.cellToTower p)) g objs = some (a₂, objs')) :
    (∀ t, a.InGrid t → (a₂.tower t).objs = (a₁.tower t).objs ∧
      (a₂.tower t).watchers =
        if a.Near (a.towerOf p) t then g (a₁.tower t).watchers else (a₁.tower t).watchers) ∧
      ∀ i, i ∈ objs' ↔ i ∈ objs ∨
        ∃ t, a.InGrid t ∧ a.Near (a.towerOf p) t ∧ i ∈ (a₁.tower t).objs := by
  obtain ⟨ts, hts, hmem⟩ := TowerInfo.exists_towers_viewTowers hr hp
  have hinfo : a₁.InGrid = a.InGrid := by rw [hs.info]
  obtain ⟨htower, hobjs⟩ := tower_areaLoop_of_towers hg (by rw [hs.info]; exact hsq)
    (hs.indexed ha) hts (fun t ht ↦ by rw [hinfo]; exact ((hmem t).1 ht).1) h
  rw [hinfo] at htower
  constructor
  · intro t ht
    refine ⟨(htower t ht).1, (htower t ht).2.trans ?_⟩
    simp only [hmem, ht, true_and]
  · intro i
    simp only [hobjs, hmem, and_assoc]

end TowerAoi

end QCLib
