import QCLib.Aoi.Storage
import QCLib.Aoi.Difference
import QCLib.Foundations.Interest

/-!
# The towers show a board

What `TowerAoi` maintains, said once: the tower sets are the two views of an interest board over
tower coordinates. `Represents g a B` says that the objects of a tower are the ids registered at it
and its watchers are the ids looking at it, for the window relation `g.Near`.

Each operation gets one specification: it is defined, the towers afterwards show the board after the
corresponding abstract update, and its output sets are the abstract deltas. All six go through two
lemmas, `Represents.leave` and `Represents.enter`, because moving a watcher *is* leaving and
re-entering as far as the towers are concerned.

The board forgets what the towers are for and what they cost. It is a function from ids to a role
and a place, so an operation that changes one id is `Function.update`, and its effect on the two
views is a fact about updates (`Foundations.Interest`). What is left to show here is local: which
sets of which tower an operation touches (`eraseObj_tower`, `insertObj_tower`, and the window loop
of `Aoi.Storage`), and that these are the ones that the board asks for.

An id may be put on the board where it is *free*, that is not registered, or registered at the same
place in the same role. That is what keeps a second `AddWatcher` of one id harmless, and it is the
only condition.
-/

open CSemantics Interest

namespace QCLib

/-- Sizes for which the window arithmetic is right and distinct towers are stored apart. -/
structure TowerInfo.Sound (g : TowerInfo) : Prop extends g.Regular where
  square : g.towerXN = g.towerYN

namespace TowerAoi

/-- The towers of `a`, laid out by `g`, show the board `B`. -/
structure Represents (g : TowerInfo) (a : TowerAoi) (B : Board ObjectId (Int × Int)) : Prop where
  info : a.toTowerInfo = g
  indexed : a.Indexed
  length : (a.towers.length : Int) = g.towerXN * g.towerYN
  mem_objs : ∀ t, g.InGrid t → ∀ i, i ∈ (a.tower t).objs ↔ B.At i t
  mem_watchers : ∀ t, g.InGrid t → ∀ i, i ∈ (a.tower t).watchers ↔ B.Watches g.Near i t
  inGrid : ∀ i r t, B i = some (r, t) → g.InGrid t

variable {g : TowerInfo} {a a₁ a₂ : TowerAoi} {B : Board ObjectId (Int × Int)} {id : ObjectId}
  {p : Point} {objs objs' : ObjectSet}

/-- The id is free to be registered with this role and tower: it is off the board, or already there
with both. -/
def Free (B : Board ObjectId (Int × Int)) (id : ObjectId) (r : Role) (t : Int × Int) : Prop :=
  B id = none ∨ B id = some (r, t)

/-- Who has been taken off the board may be put anywhere. -/
theorem Free.remove {r : Role} {t : Int × Int} : Free (B.remove id) id r t :=
  Or.inl Board.remove_self

/-- Who is free to be put on a tower stands nowhere else. -/
theorem Free.at_imp {r : Role} {s t : Int × Int} (h : Free B id r t) (hat : B.At id s) : s = t := by
  rcases h with h | h
  · exact absurd hat (Board.not_at_of_none h)
  · exact (Board.at_iff_of_eq h).1 hat

theorem Free.not_watches_of_object {t s : Int × Int} (h : Free B id .object t) :
    ¬ B.Watches g.Near id s := by
  rcases h with h | h
  · exact Board.not_watches_of_none h
  · exact Board.not_watches_of_object h

theorem Represents.length_of_sameShape (h : Represents g a B) (hs : SameShape a a₁) :
    (a₁.towers.length : Int) = g.towerXN * g.towerYN := by
  rw [hs.length]
  exact h.length

/-- Managers that show boards of the same layout have the same shape. -/
theorem Represents.sameShape {B' : Board ObjectId (Int × Int)} (h : Represents g a B)
    (h' : Represents g a₁ B') : SameShape a a₁ := by
  refine ⟨h'.info.trans h.info.symm, Int.ofNat.inj ?_⟩
  exact h'.length.trans h.length.symm

/-- Taking somebody off the board leaves the others in the grid. -/
theorem Represents.inGrid_remove (h : Represents g a B) :
    ∀ i r t, B.remove id i = some (r, t) → g.InGrid t := by
  intro i r t hi
  by_cases hid : i = id
  · subst hid
    simp at hi
  · rw [Board.remove_of_ne hid] at hi
    exact h.inGrid i r t hi

/-- A piece that is put on a tower of the grid leaves all of them in the grid. -/
theorem Represents.inGrid_put {r : Role} {s : Int × Int} (h : Represents g a B) (hs : g.InGrid s) :
    ∀ i r' t, B.put id r s i = some (r', t) → g.InGrid t := by
  intro i r' t hi
  by_cases hid : i = id
  · subst hid
    simp only [Board.put_self, Option.some.injEq, Prod.mk.injEq] at hi
    exact hi.2 ▸ hs
  · rw [Board.put_of_ne hid] at hi
    exact h.inGrid i r' t hi

/-! ### Leaving and entering -/

theorem eraseObj_tower (hg : g.Sound) (h : Represents g a B) (hp : g.InMap p)
    (h₁ : a.eraseObj (g.towerOf p) id = some a₁) :
    SameShape a a₁ ∧ ∀ t, g.InGrid t → (a₁.tower t).watchers = (a.tower t).watchers ∧
      ∀ i, i ∈ (a₁.tower t).objs ↔ ¬ (t = g.towerOf p ∧ i = id) ∧ i ∈ (a.tower t).objs := by
  obtain rfl := h.info
  refine ⟨sameShape_of_modifyTower h₁, fun t ht ↦ ?_⟩
  rw [tower_modifyTower hg.square h.indexed (TowerInfo.inGrid_towerOf hg.toRegular hp) h₁ ht]
  split_ifs with htp
  · simp only [ObjectSet.mem_erase_iff, htp, true_and, implies_true]
  · simp only [htp, false_and, not_false_eq_true, true_and, implies_true]

/-- Inserting an object changes the objects of one tower. -/
theorem insertObj_tower (hg : g.Sound) (hinfo : a.toTowerInfo = g) (ha : a.Indexed)
    (hp : g.InMap p) (h₁ : a.insertObj (g.towerOf p) id = some a₁) :
    SameShape a a₁ ∧ ∀ t, g.InGrid t → (a₁.tower t).watchers = (a.tower t).watchers ∧
      ∀ i, i ∈ (a₁.tower t).objs ↔ t = g.towerOf p ∧ i = id ∨ i ∈ (a.tower t).objs := by
  obtain rfl := hinfo
  refine ⟨sameShape_of_modifyTower h₁, fun t ht ↦ ?_⟩
  rw [tower_modifyTower hg.square ha (TowerInfo.inGrid_towerOf hg.toRegular hp) h₁ ht]
  split_ifs with htp
  · simp only [ObjectSet.mem_insert_iff, htp, true_and, implies_true]
  · simp only [htp, false_and, false_or, true_and, implies_true]

/-- **Leaving**: erasing an id from its tower's objects and its window's watchers takes it off the
board. -/
theorem Represents.leave (hg : g.Sound) (h : Represents g a B) (hp : g.InMap p)
    (hid : Free B id .watcher (g.towerOf p)) (h₁ : a.eraseObj (g.towerOf p) id = some a₁)
    (h₂ : a₁.areaLoop (g.viewTowers (g.cellToTower p)) (·.erase id) objs = some (a₂, objs')) :
    Represents g a₂ (B.remove id) ∧
      ∀ i, i ∈ objs' ↔ i ∈ objs ∨ i ≠ id ∧ B.Within g.Near (g.towerOf p) i := by
  obtain ⟨hs₁, herase⟩ := eraseObj_tower hg h hp h₁
  have hinfo := h.info
  subst hinfo
  obtain ⟨a₂', objs'', hrun, hs₂⟩ :=
    exists_areaLoop hg.toRegular h.indexed hp hs₁ (·.erase id) objs
  obtain ⟨rfl, rfl⟩ := Prod.mk.inj (Option.some.inj (hrun.symm.trans h₂))
  obtain ⟨htower, hobjs⟩ := tower_areaLoop (fun w ↦ by ext; simp) hg.toRegular hg.square h.indexed
    hp hs₁ h₂
  have hobj : ∀ t, a.InGrid t → ∀ i, i ∈ (a₁.tower t).objs ↔ i ≠ id ∧ B.At i t := by
    intro t ht i
    rw [(herase t ht).2, h.mem_objs t ht]
    constructor
    · rintro ⟨hne, hat⟩
      refine ⟨fun hi ↦ ?_, hat⟩
      subst hi
      exact hne ⟨hid.at_imp hat, rfl⟩
    · exact fun ⟨hne, hat⟩ ↦ ⟨fun hc ↦ hne hc.2, hat⟩
  refine ⟨⟨hs₂.info, hs₂.indexed h.indexed, h.length_of_sameShape hs₂, ?_, ?_, ?_⟩, ?_⟩
  · intro t ht i
    rw [(htower t ht).1, hobj t ht, Board.at_remove]
  · intro t ht i
    rw [(htower t ht).2, (herase t ht).1, Board.watches_remove]
    by_cases hi : i = id
    · -- Outside its window the id watched nothing to begin with.
      subst hi
      rcases hid with hid | hid
      · split_ifs <;> simp [h.mem_watchers t ht, Board.not_watches_of_none hid]
      · split_ifs with hn <;> simp [h.mem_watchers t ht, Board.watches_iff_of_eq hid, hn]
    · split_ifs <;> simp [h.mem_watchers t ht, hi, Ne.symm hi]
  · exact h.inGrid_remove
  · intro i
    rw [hobjs]
    refine or_congr_right ⟨?_, ?_⟩
    · rintro ⟨t, ht, hn, hi⟩
      obtain ⟨hne, hat⟩ := (hobj t ht i).1 hi
      exact ⟨hne, t, hat, hn⟩
    · rintro ⟨hne, t, hat, hn⟩
      obtain ⟨r, hB⟩ := hat
      have ht := h.inGrid i r t hB
      exact ⟨t, ht, hn, (hobj t ht i).2 ⟨hne, r, hB⟩⟩

/-- **Entering**: inserting an id into its window's watchers and its tower's objects puts it on the
board. -/
theorem Represents.enter (hg : g.Sound) (h : Represents g a B) (hp : g.InMap p)
    (hid : Free B id .watcher (g.towerOf p))
    (h₁ : a.areaLoop (g.viewTowers (g.cellToTower p)) (·.insert id) objs = some (a₁, objs'))
    (h₂ : a₁.insertObj (g.towerOf p) id = some a₂) :
    Represents g a₂ (B.put id .watcher (g.towerOf p)) ∧
      ∀ i, i ∈ objs' ↔ i ∈ objs ∨ B.Within g.Near (g.towerOf p) i := by
  have hinfo := h.info
  subst hinfo
  have hgrid := TowerInfo.inGrid_towerOf hg.toRegular hp
  obtain ⟨a₁', objs'', hrun, hs₁⟩ :=
    exists_areaLoop hg.toRegular h.indexed hp (.refl a) (·.insert id) objs
  obtain ⟨rfl, rfl⟩ := Prod.mk.inj (Option.some.inj (hrun.symm.trans h₁))
  obtain ⟨htower, hobjs⟩ := tower_areaLoop (fun w ↦ by ext; simp) hg.toRegular hg.square h.indexed
    hp (.refl a) h₁
  obtain ⟨hs₂, hinsert⟩ := insertObj_tower hg hs₁.info (hs₁.indexed h.indexed) hp h₂
  have hs := hs₁.trans hs₂
  refine ⟨⟨hs.info, hs.indexed h.indexed, h.length_of_sameShape hs, ?_, ?_, ?_⟩, ?_⟩
  · intro t ht i
    rw [(hinsert t ht).2, (htower t ht).1, h.mem_objs t ht, Board.at_put]
    split_ifs with hi
    · subst hi
      rw [and_iff_left rfl, or_iff_left_of_imp hid.at_imp]
    · simp [hi]
  · intro t ht i
    rw [(hinsert t ht).1, (htower t ht).2, Board.watches_put_watcher]
    by_cases hi : i = id
    · -- Outside the window it would have to be registered elsewhere.
      subst hi
      rw [if_pos rfl]
      rcases hid with hid | hid
      · split_ifs with hn <;> simp [h.mem_watchers t ht, Board.not_watches_of_none hid, hn]
      · split_ifs with hn <;> simp [h.mem_watchers t ht, Board.watches_iff_of_eq hid, hn]
    · rw [if_neg hi]
      split_ifs <;> simp [h.mem_watchers t ht, Ne.symm hi]
  · exact h.inGrid_put hgrid
  · intro i
    rw [hobjs]
    refine or_congr_right ⟨?_, ?_⟩
    · rintro ⟨t, ht, hn, hi⟩
      exact ⟨t, (h.mem_objs t ht i).1 hi, hn⟩
    · rintro ⟨t, ⟨r, hB⟩, hn⟩
      have ht := h.inGrid i r t hB
      exact ⟨t, ht, hn, (h.mem_objs t ht i).2 ⟨r, hB⟩⟩

/-- **Leaving, for an object**: it looks at nothing, so erasing it from its tower is enough. -/
theorem Represents.leaveObject (hg : g.Sound) (h : Represents g a B) (hp : g.InMap p)
    (hid : Free B id .object (g.towerOf p)) (h₁ : a.eraseObj (g.towerOf p) id = some a₁) :
    Represents g a₁ (B.remove id) := by
  obtain ⟨hs₁, herase⟩ := eraseObj_tower hg h hp h₁
  refine ⟨hs₁.info.trans h.info, hs₁.indexed h.indexed, h.length_of_sameShape hs₁, ?_, ?_, ?_⟩
  · intro t ht i
    rw [(herase t ht).2, h.mem_objs t ht, Board.at_remove]
    refine ⟨fun ⟨hne, hat⟩ ↦ ⟨fun hi ↦ ?_, hat⟩, fun ⟨hne, hat⟩ ↦ ⟨fun hc ↦ hne hc.2, hat⟩⟩
    subst hi
    exact hne ⟨hid.at_imp hat, rfl⟩
  · intro t ht i
    rw [(herase t ht).1, h.mem_watchers t ht, Board.watches_remove]
    refine ⟨fun hw ↦ ⟨fun hi ↦ ?_, hw⟩, fun hw ↦ hw.2⟩
    subst hi
    exact hid.not_watches_of_object hw
  · exact h.inGrid_remove

/-- **Entering, for an object**: the insertion on the tower is the placing on the board. -/
theorem Represents.enterObject (hg : g.Sound) (h : Represents g a B) (hp : g.InMap p)
    (hid : Free B id .object (g.towerOf p)) (h₁ : a.insertObj (g.towerOf p) id = some a₁) :
    Represents g a₁ (B.put id .object (g.towerOf p)) := by
  obtain ⟨hs₁, hinsert⟩ := insertObj_tower hg h.info h.indexed hp h₁
  refine ⟨hs₁.info.trans h.info, hs₁.indexed h.indexed, h.length_of_sameShape hs₁, ?_, ?_, ?_⟩
  · intro t ht i
    rw [(hinsert t ht).2, h.mem_objs t ht, Board.at_put]
    split_ifs with hi
    · subst hi
      rw [and_iff_left rfl, or_iff_left_of_imp hid.at_imp]
    · rw [or_iff_right fun hc ↦ hi hc.2]
  · intro t ht i
    rw [(hinsert t ht).1, h.mem_watchers t ht, Board.watches_put_object]
    refine ⟨fun hw ↦ ⟨fun hi ↦ ?_, hw⟩, fun hw ↦ hw.2⟩
    subst hi
    exact hid.not_watches_of_object hw
  · exact h.inGrid_put (h.info ▸ TowerInfo.inGrid_towerOf (h.info ▸ hg.toRegular) (h.info ▸ hp))

end TowerAoi

end QCLib
