import QCLib.Aoi.Numbering
import QCLib.Aoi.Operations

/-!
# Moving against leaving and re-entering

`MoveWatcher` is specified by two other calls: it should leave the towers as `DelWatcher` at the old
cell and `AddWatcher` at the new one do, and report the differences of their outputs. Between two
towers it performs the same updates in the same order (`exists_hop`). Inside one tower it takes a
shortcut that reports the unchanged watchers and nothing else, so the unchanged *objects* are
missing from its answer.

The comparison is made on any square grid, also where a window is cut by the 16-bit stores, so it
speaks of the towers `ls` and `lt` that the loops over the two windows visit.

The comparison runs both ways of the caller on the same manager. `Hop` is the data of one of them,
between two towers: the stores in between and the two unions of sets that the loops have collected;
`exists_hop` shows that both calls go through it. What is left is a statement about sets
(`agreesWithReentry_iff_of_ne`), and, within one tower, the question whether somebody else stands in
the window, because the shortcut leaves the set of unchanged objects empty
(`agreesWithReentry_iff_of_towerOf_eq`).
-/

open CSemantics Interest

namespace QCLib

namespace TowerAoi

variable {a a₁ a₂ a₃ a₄ : TowerAoi} {B : Board ObjectId (Int × Int)} {id : ObjectId}
  {op np : Point} {s t : Int × Int} {ls lt : List (Int × Int)}

/-- The six outputs of a move are the differences of the outputs of leaving (watchers `dw`, objects
`od`) and of entering (`aw`, `oa`), the moving id aside. -/
structure MoveSets.Compares (id : ObjectId) (dw od aw oa : ObjectSet) (out : MoveSets) : Prop where
  winsert : out.winsert = aw.erase id \ dw.erase id
  wsame : out.wsame = (aw.erase id ∩ dw.erase id).insert id
  wremove : out.wremove = dw.erase id \ aw.erase id
  addobjs : out.addobjs = oa.erase id \ od.erase id
  sameobjs : out.sameobjs = oa.erase id ∩ od.erase id
  rmobjs : out.rmobjs = od.erase id \ oa.erase id

/-- `MoveWatcher` from `op` to `np` leaves the tower sets as `DelWatcher` at `op` and then
`AddWatcher` at `np` do, and reports the differences of their outputs. -/
def AgreesWithReentry (a : TowerAoi) (id : ObjectId) (op np : Point) : Prop :=
  ∃ left dw od entered aw oa moved out,
    a.delWatcher id op ∅ ∅ = some (left, dw, od) ∧
    left.addWatcher id np ∅ ∅ = some (entered, aw, oa) ∧
    a.moveWatcher id op np {} = some (moved, out) ∧
    (∀ t, a.InGrid t → (moved.tower t).objs = (entered.tower t).objs ∧
      (moved.tower t).watchers = (entered.tower t).watchers) ∧
    MoveSets.Compares id dw od aw oa out

/-- What has to be compared, once the three calls have returned. -/
theorem agreesWithReentry_iff_of_eq {left entered moved : TowerAoi} {dw od aw oa : ObjectSet}
    {out : MoveSets} (hdel : a.delWatcher id op ∅ ∅ = some (left, dw, od))
    (hadd : left.addWatcher id np ∅ ∅ = some (entered, aw, oa))
    (hmove : a.moveWatcher id op np {} = some (moved, out)) :
    a.AgreesWithReentry id op np ↔
      (∀ t, a.InGrid t → (moved.tower t).objs = (entered.tower t).objs ∧
        (moved.tower t).watchers = (entered.tower t).watchers) ∧
      MoveSets.Compares id dw od aw oa out := by
  constructor
  · rintro ⟨_, _, _, _, _, _, _, _, hd, ha, hm, hsets, hout⟩
    obtain ⟨rfl, rfl, rfl⟩ := Option.some.inj (hdel.symm.trans hd)
    obtain ⟨rfl, rfl, rfl⟩ := Option.some.inj (hadd.symm.trans ha)
    obtain ⟨rfl, rfl⟩ := Option.some.inj (hmove.symm.trans hm)
    exact ⟨hsets, hout⟩
  · rintro ⟨hsets, hout⟩
    exact ⟨_, _, _, _, _, _, _, _, hdel, hadd, hmove, hsets, hout⟩

/-! ### One hop -/

/-- The four updates of a watcher that leaves the tower `s` and the window `ls` and enters the
window `lt` and the tower `t`, with the objects collected on the way. -/
structure Hop (a : TowerAoi) (id : ObjectId) (s t : Int × Int) (ls lt : List (Int × Int))
    (a₂ a₄ : TowerAoi) (oldobjs newobjs : ObjectSet) : Prop where
  objs_left : ∀ u, a.InGrid u → (a₂.tower u).objs =
    if u = s then (a.tower u).objs.erase id else (a.tower u).objs
  watchers_left : ∀ u, a.InGrid u → (a₂.tower u).watchers =
    if u ∈ ls then (a.tower u).watchers.erase id else (a.tower u).watchers
  objs_entered : ∀ u, a.InGrid u → (a₄.tower u).objs =
    if u = t then (a₂.tower u).objs.insert id else (a₂.tower u).objs
  watchers_entered : ∀ u, a.InGrid u → (a₄.tower u).watchers =
    if u ∈ lt then (a₂.tower u).watchers.insert id else (a₂.tower u).watchers
  mem_oldobjs : ∀ i, i ∈ oldobjs ↔ ∃ u ∈ ls, i ∈ (a₂.tower u).objs
  mem_newobjs : ∀ i, i ∈ newobjs ↔ ∃ u ∈ lt, i ∈ (a₂.tower u).objs

/-- One update of a tower, made after others that have kept the shape. -/
private theorem exists_update (hsq : a.towerXN = a.towerYN) (ha : a.Indexed) (hs : SameShape a a₁)
    (ht : a.InGrid t) (f : Tower → Tower) :
    ∃ a₂, a₁.modifyTower t f = some a₂ ∧ SameShape a a₂ ∧
      ∀ u, a.InGrid u → a₂.tower u = if u = t then f (a₁.tower u) else a₁.tower u := by
  have hgrid : a₁.InGrid = a.InGrid := by rw [hs.info]
  rw [← hgrid] at ht
  obtain ⟨a₂, h₂⟩ := exists_modifyTower (hs.indexed ha) ht f
  refine ⟨a₂, h₂, hs.trans (sameShape_of_modifyTower h₂), fun u hu ↦ ?_⟩
  rw [← hgrid] at hu
  exact tower_modifyTower (by rw [hs.info]; exact hsq) (hs.indexed ha) ht h₂ hu

/-- One loop over an area, made after others that have kept the shape. -/
private theorem exists_loop (hsq : a.towerXN = a.towerYN) (ha : a.Indexed) (hs : SameShape a a₁)
    {area : Area} (hls : area.towers = some ls) (hgs : ∀ u ∈ ls, a.InGrid u)
    {g : ObjectSet → ObjectSet} (hg : ∀ w, g (g w) = g w) :
    ∃ a₂ objs, a₁.areaLoop area g ∅ = some (a₂, objs) ∧ SameShape a a₂ ∧
      (∀ u, a.InGrid u → (a₂.tower u).objs = (a₁.tower u).objs ∧
        (a₂.tower u).watchers =
          if u ∈ ls then g (a₁.tower u).watchers else (a₁.tower u).watchers) ∧
      ∀ i, i ∈ objs ↔ ∃ u ∈ ls, i ∈ (a₁.tower u).objs := by
  have hgrid : a₁.InGrid = a.InGrid := by rw [hs.info]
  rw [← hgrid] at hgs
  obtain ⟨a₂, objs, h₂, hs₂⟩ := exists_areaLoop_of_towers (hs.indexed ha) hls hgs g ∅
  obtain ⟨htower, hobjs⟩ := tower_areaLoop_of_towers hg (by rw [hs.info]; exact hsq)
    (hs.indexed ha) hls hgs h₂
  rw [hgrid] at htower
  refine ⟨a₂, objs, h₂, hs.trans hs₂, htower, fun i ↦ ?_⟩
  rw [hobjs, or_iff_right Std.ExtTreeSet.not_mem_empty]

/-- On a square grid the four updates are defined whenever the loops are. -/
theorem exists_hop (hsq : a.towerXN = a.towerYN) (ha : a.Indexed) (hs : a.InGrid s)
    (ht : a.InGrid t) {sArea tArea : Area} (hls : sArea.towers = some ls)
    (hlt : tArea.towers = some lt) (hgs : ∀ u ∈ ls, a.InGrid u) (hgt : ∀ u ∈ lt, a.InGrid u)
    (id : ObjectId) :
    ∃ a₁ a₂ oldobjs a₃ newobjs a₄, a.eraseObj s id = some a₁ ∧
      a₁.areaLoop sArea (·.erase id) ∅ = some (a₂, oldobjs) ∧
      a₂.areaLoop tArea (·.insert id) ∅ = some (a₃, newobjs) ∧
      a₃.insertObj t id = some a₄ ∧ SameShape a a₂ ∧
      Hop a id s t ls lt a₂ a₄ oldobjs newobjs := by
  -- the updates in the order of the calls: leave the tower, the window, enter the window, the tower
  obtain ⟨a₁, h₁, hs₁, herase⟩ := exists_update hsq ha (.refl a) hs fun tower ↦
    { tower with objs := tower.objs.erase id }
  obtain ⟨a₂, oldobjs, h₂, hs₂, hleave, hold⟩ := exists_loop hsq ha hs₁ hls hgs
    (g := (·.erase id)) fun w ↦ by ext; simp
  obtain ⟨a₃, newobjs, h₃, hs₃, henter, hnew⟩ := exists_loop hsq ha hs₂ hlt hgt
    (g := (·.insert id)) fun w ↦ by ext; simp
  obtain ⟨a₄, h₄, hs₄, hinsert⟩ := exists_update hsq ha hs₃ ht fun tower ↦
    { tower with objs := tower.objs.insert id }
  refine ⟨a₁, a₂, oldobjs, a₃, newobjs, a₄, h₁, h₂, h₃, h₄, hs₂, ?_⟩
  constructor
  case objs_left =>
    intro u hu
    rw [(hleave u hu).1, herase u hu]
    split_ifs <;> rfl
  case watchers_left =>
    intro u hu
    rw [(hleave u hu).2, herase u hu]
    split_ifs <;> rfl
  case objs_entered =>
    intro u hu
    rw [hinsert u hu, (henter u hu).1.symm]
    split_ifs <;> rfl
  case watchers_entered =>
    intro u hu
    rw [hinsert u hu, (henter u hu).2.symm]
    split_ifs <;> rfl
  case mem_oldobjs =>
    intro i
    rw [hold]
    refine exists_congr fun u ↦ and_congr_right fun hu ↦ ?_
    rw [(hleave u (hgs u hu)).1]
  case mem_newobjs => exact hnew

/-! ### Two towers -/

/-- A difference is that of the other members exactly when the id itself is not in it. -/
private theorem diff_eq_diff_erase_iff {x y x' y' : ObjectSet}
    (hx : ∀ i, i ≠ id → (i ∈ x ↔ i ∈ x')) (hy : ∀ i, i ≠ id → (i ∈ y ↔ i ∈ y')) :
    x \ y = x'.erase id \ y'.erase id ↔ ¬ (id ∈ x ∧ id ∉ y) := by
  rw [Std.ExtTreeSet.ext_mem_iff]
  constructor
  · intro h hid
    simpa [hid.1, hid.2] using h id
  · intro h i
    rw [Std.ExtTreeSet.mem_diff_iff, Std.ExtTreeSet.mem_diff_iff, ObjectSet.mem_erase_iff,
      ObjectSet.mem_erase_iff]
    by_cases hi : i = id
    · subst hi
      simpa using h
    · simp [hi, hx i hi, hy i hi]

/-- The id stays among the watchers of a tower its window relation covers but its loops miss. -/
private theorem mem_watchers_left (hrep : Represents a.toTowerInfo a B)
    (hid : B id = some (.watcher, s)) {oldobjs newobjs : ObjectSet}
    (hop : Hop a id s t ls lt a₂ a₄ oldobjs newobjs) {u : Int × Int} (hu : a.InGrid u) :
    id ∈ (a₂.tower u).watchers ↔ a.Near s u ∧ u ∉ ls := by
  rw [hop.watchers_left u hu]
  have hw := (hrep.mem_watchers u hu id).trans (Board.watches_iff_of_eq hid)
  split_ifs with hmem
  · simp [hmem]
  · simp [hw, hmem]

/-- The objects left behind are the other ones. -/
private theorem mem_objs_left (hrep : Represents a.toTowerInfo a B)
    (hid : B id = some (.watcher, s)) {oldobjs newobjs : ObjectSet}
    (hop : Hop a id s t ls lt a₂ a₄ oldobjs newobjs) {u : Int × Int} (hu : a.InGrid u)
    {i : ObjectId} : i ∈ (a₂.tower u).objs ↔ i ≠ id ∧ B.At i u := by
  rw [hop.objs_left u hu]
  split_ifs with hus
  · rw [ObjectSet.mem_erase_iff, hrep.mem_objs u hu]
  · rw [hrep.mem_objs u hu, and_iff_right_of_imp]
    rintro hat rfl
    exact hus ((Board.at_iff_of_eq hid).1 hat)

/-- **Between two towers** the calls agree unless the loops leave the id behind in the watchers of
one of them only. -/
theorem agreesWithReentry_iff_of_ne (hsq : a.towerXN = a.towerYN)
    (hrep : Represents a.toTowerInfo a B) (hid : B id = some (.watcher, a.towerOf op))
    (hs : a.InGrid (a.towerOf op)) (ht : a.InGrid (a.towerOf np))
    (hls : (a.viewTowers (a.cellToTower op)).towers = some ls)
    (hlt : (a.viewTowers (a.cellToTower np)).towers = some lt)
    (hgs : ∀ u ∈ ls, a.InGrid u) (hgt : ∀ u ∈ lt, a.InGrid u)
    (hne : a.towerOf op ≠ a.towerOf np) :
    a.AgreesWithReentry id op np ↔
      (a.Near (a.towerOf op) (a.towerOf op) ∧ a.towerOf op ∉ ls ↔
        a.Near (a.towerOf op) (a.towerOf np) ∧ a.towerOf np ∉ ls) := by
  obtain ⟨a₁, a₂, oldobjs, a₃, newobjs, a₄, h₁, h₂, h₃, h₄, hs₂, hop⟩ :=
    exists_hop hsq hrep.indexed hs ht hls hlt hgs hgt id
  have hinfo := hs₂.info
  have hread := towerAt_eq hrep.indexed hs
  have hold : a₂.towerAt (a.towerOf op) = some (a₂.tower (a.towerOf op)) :=
    towerAt_eq (hs₂.indexed hrep.indexed) (by rwa [hinfo])
  have hnew : a₂.towerAt (a.towerOf np) = some (a₂.tower (a.towerOf np)) :=
    towerAt_eq (hs₂.indexed hrep.indexed) (by rwa [hinfo])
  have hdel : a.delWatcher id op ∅ ∅ = _ := delWatcher_eq hread h₁ h₂
  have hadd : a₂.addWatcher id np ∅ ∅ =
      some (a₄, ∅ ∪ (a₂.tower (a.towerOf np)).watchers, newobjs) :=
    addWatcher_eq (by rw [hinfo]; exact hnew) (by rw [hinfo]; exact h₃) (by rw [hinfo]; exact h₄)
  have hmove : a.moveWatcher id op np {} = _ := moveWatcher_eq_of_ne hne h₁ h₂ hold hnew h₃ h₄
  simp only [moveOject_empty] at hmove
  -- the watchers that the move reads differ from those that the two calls read in the id at most
  have hkept : ∀ i, i ≠ id → (i ∈ (a₂.tower (a.towerOf op)).watchers ↔
      i ∈ (∅ ∪ (a.tower (a.towerOf op)).watchers).erase id) := by
    intro i hi
    rw [hop.watchers_left _ hs, ObjectSet.mem_erase_iff]
    split_ifs
    · simp [Ne.symm hi, hi]
    · simp [hi]
  have hfresh : ∀ i, i ≠ id → (i ∈ (a₂.tower (a.towerOf np)).watchers ↔
      i ∈ ∅ ∪ (a₂.tower (a.towerOf np)).watchers) := by simp
  have holdobjs : oldobjs.erase id = oldobjs := ObjectSet.erase_of_notMem fun hmem ↦ by
    obtain ⟨u, hu, hin⟩ := (hop.mem_oldobjs id).1 hmem
    exact ((mem_objs_left hrep hid hop (hgs u hu)).1 hin).1 rfl
  have hnewobjs : newobjs.erase id = newobjs := ObjectSet.erase_of_notMem fun hmem ↦ by
    obtain ⟨u, hu, hin⟩ := (hop.mem_newobjs id).1 hmem
    exact ((mem_objs_left hrep hid hop (hgt u hu)).1 hin).1 rfl
  -- so all hangs on whether the id is among the watchers of the two towers when they are read
  rw [agreesWithReentry_iff_of_eq hdel hadd hmove, ← mem_watchers_left hrep hid hop hs,
    ← mem_watchers_left hrep hid hop ht]
  have hins := diff_eq_diff_erase_iff hfresh hkept
  have hrem := diff_eq_diff_erase_iff hkept hfresh
  constructor
  · rintro ⟨-, hout⟩
    have hwi := hins.1 hout.winsert
    have hwr := hrem.1 hout.wremove
    exact ⟨fun h ↦ by_contra fun hn ↦ hwr ⟨h, hn⟩, fun h ↦ by_contra fun hn ↦ hwi ⟨h, hn⟩⟩
  · intro hiff
    refine ⟨fun u _ ↦ ⟨rfl, rfl⟩, ?_⟩
    constructor
    case winsert => exact hins.2 fun h ↦ h.2 (hiff.2 h.1)
    case wremove => exact hrem.2 fun h ↦ h.2 (hiff.1 h.1)
    case wsame =>
      ext i
      simp only [ObjectSet.mem_insert_iff, Std.ExtTreeSet.mem_inter_iff]
      by_cases hi : i = id
      · simp only [hi, true_or]
      · simp only [hi, false_or, ObjectSet.mem_erase_iff, ne_eq, not_false_eq_true, true_and,
          hkept i hi, ← hfresh i hi, and_comm]
    case addobjs | rmobjs => rw [holdobjs, hnewobjs]
    case sameobjs =>
      rw [holdobjs, hnewobjs]
      ext i
      simp [and_comm]

/-! ### One tower -/

/-- **Inside one tower** the calls agree when the id watches its own tower and is alone in its
window. -/
theorem agreesWithReentry_iff_of_towerOf_eq (hsq : a.towerXN = a.towerYN)
    (hrep : Represents a.toTowerInfo a B) (hid : B id = some (.watcher, a.towerOf op))
    (hs : a.InGrid (a.towerOf op)) (hls : (a.viewTowers (a.cellToTower op)).towers = some ls)
    (hsame : a.towerOf op = a.towerOf np) :
    a.AgreesWithReentry id op np ↔
      a.Near (a.towerOf op) (a.towerOf op) ∧ ∀ i, i ≠ id → ∀ u ∈ ls, ¬ B.At i u := by
  have hgrid := hs
  have hgs : ∀ u ∈ ls, a.InGrid u := by
    intro u hu
    obtain ⟨⟨hx₀, hx₁⟩, hy₀, hy₁⟩ := hs
    exact TowerInfo.inGrid_of_mem_towers (by omega) (by omega) hls hu
  have hcell : a.cellToTower op = a.cellToTower np := Point.toPair_injective hsame
  have hlt := hls
  rw [hcell] at hlt
  obtain ⟨a₁, a₂, oldobjs, a₃, newobjs, a₄, h₁, h₂, h₃, h₄, hs₂, hop⟩ :=
    exists_hop hsq hrep.indexed hs hs hls hlt hgs hgs id
  have hinfo := hs₂.info
  have hread := towerAt_eq hrep.indexed hs
  have hnew : a₂.towerAt (a.towerOf np) = some (a₂.tower (a.towerOf op)) := by
    rw [← hsame]
    exact towerAt_eq (hs₂.indexed hrep.indexed) (by rwa [hinfo])
  have hdel : a.delWatcher id op ∅ ∅ = _ := delWatcher_eq hread h₁ h₂
  have hadd : a₂.addWatcher id np ∅ ∅ =
      some (a₄, ∅ ∪ (a₂.tower (a.towerOf op)).watchers, newobjs) :=
    addWatcher_eq (by rw [hinfo]; exact hnew) (by rw [hinfo]; exact h₃)
      (by rw [hinfo, ← hsame]; exact h₄)
  -- the move stops at once here, with the watchers of the tower and with no objects
  have hmove : a.moveWatcher id op np {} = _ := moveWatcher_eq_of_eq hread hsame
  have hself := (hrep.mem_watchers _ hs id).trans (Board.watches_iff_of_eq hid)
  have hwatchers : (∅ ∪ (a₂.tower (a.towerOf op)).watchers).erase id =
      ((∅ ∪ (a.tower (a.towerOf op)).watchers).erase id).erase id := by
    ext i
    simp only [ObjectSet.mem_erase_iff, Std.ExtTreeSet.mem_union_iff, hop.watchers_left _ hs]
    by_cases hi : i = id
    · simp [hi]
    · split_ifs
      · simp [hi, Ne.symm hi]
      · simp [hi]
  have hobjs : newobjs = oldobjs := by
    ext i
    rw [hop.mem_newobjs, hop.mem_oldobjs]
  rw [agreesWithReentry_iff_of_eq hdel hadd hmove]
  constructor
  · rintro ⟨-, hout⟩
    constructor
    · -- the two calls tell the id to itself, the move only if it watches its own tower
      have hmem : id ∈ ∅ ∪ (a.tower (a.towerOf op)).watchers := by
        have hwsame := hout.wsame
        simp only at hwsame
        rw [hwsame]
        exact Std.ExtTreeSet.mem_insert_self
      exact hself.1 (by simpa using hmem)
    · -- an object in the window is the same before and after, but the move leaves `sameobjs` empty
      intro i hi u hu hat
      have hold := (hop.mem_oldobjs i).2
        ⟨u, hu, (mem_objs_left hrep hid hop (hgs u hu)).2 ⟨hi, hat⟩⟩
      have hmem : i ∈ newobjs.erase id ∩ oldobjs.erase id := by
        rw [hobjs, Std.ExtTreeSet.mem_inter_iff, ObjectSet.mem_erase_iff]
        exact ⟨⟨hi, hold⟩, hi, hold⟩
      rw [← hout.sameobjs] at hmem
      exact Std.ExtTreeSet.not_mem_empty hmem
  · rintro ⟨hnear, halone⟩
    -- conversely, the loops see nobody, so that there is nothing the move fails to tell
    have hempty : oldobjs = ∅ := by
      refine Std.ExtTreeSet.eq_empty_iff_forall_not_mem.2 fun i hi ↦ ?_
      obtain ⟨u, hu, hmem⟩ := (hop.mem_oldobjs i).1 hi
      obtain ⟨hne, hat⟩ := (mem_objs_left hrep hid hop (hgs u hu)).1 hmem
      exact halone i hne u hu hat
    refine ⟨fun u hu ↦ ⟨?_, ?_⟩, ?_⟩
    · rw [hop.objs_entered u hu, hop.objs_left u hu]
      split_ifs with hus
      · have hmem : id ∈ (a.tower u).objs :=
          (hrep.mem_objs u hu id).2 ⟨.watcher, by rw [hid, hus]⟩
        ext i
        simp only [ObjectSet.mem_insert_iff, ObjectSet.mem_erase_iff]
        by_cases hi : i = id <;> simp [hi, hmem]
      · rfl
    · rw [hop.watchers_entered u hu, hop.watchers_left u hu]
      split_ifs with hul
      · have hnearu : a.Near (a.towerOf op) u := by
          obtain ⟨⟨hx₀, hx₁⟩, hy₀, hy₁⟩ := hs
          have hvx : 0 ≤ a.towerViewWeight := by simpa using hnear.1
          have hvy : 0 ≤ a.towerViewHight := by simpa using hnear.2
          exact TowerInfo.near_of_mem_towers (by omega) (by omega) hvx hvy hgrid hls hul
        have hmem := (hrep.mem_watchers u hu id).2 ((Board.watches_iff_of_eq hid).2 hnearu)
        ext i
        simp only [ObjectSet.mem_insert_iff, ObjectSet.mem_erase_iff]
        by_cases hi : i = id <;> simp [hi, hmem]
      · rfl
    constructor
    case winsert | wremove =>
      rw [hwatchers]
      ext i
      simp
    case addobjs | rmobjs =>
      rw [hobjs]
      ext i
      simp
    case sameobjs =>
      rw [hobjs, hempty]
      ext i
      simp
    case wsame =>
      have hmem := hself.2 hnear
      rw [hwatchers]
      ext i
      by_cases hi : i = id
      · simp [hi, hmem]
      · simp [Ne.symm hi]

/-! ### Every move -/

/-- When the calls agree. In a grid whose windows are not cut, that is: the cells lie in different
towers, or nobody else is in the window (`reentryFits_iff_of_sound`). -/
def ReentryFits (a : TowerAoi) (B : Board ObjectId (Int × Int)) (id : ObjectId) (op np : Point) :
    Prop :=
  ∃ ls lt, (a.viewTowers (a.cellToTower op)).towers = some ls ∧
    (a.viewTowers (a.cellToTower np)).towers = some lt ∧
    if a.towerOf op = a.towerOf np then
      a.Near (a.towerOf op) (a.towerOf op) ∧ ∀ i, i ≠ id → ∀ u ∈ ls, ¬ B.At i u
    else
      a.Near (a.towerOf op) (a.towerOf op) ∧ a.towerOf op ∉ ls ↔
        a.Near (a.towerOf op) (a.towerOf np) ∧ a.towerOf np ∉ ls

private theorem towers_of_areaLoop {area : Area} {f : ObjectSet → ObjectSet} {objs : ObjectSet}
    {r : TowerAoi × ObjectSet} (h : a.areaLoop area f objs = some r) :
    ∃ ts, area.towers = some ts := by
  obtain ⟨ts, hts, -⟩ := Option.bind_eq_some_iff.1 h
  exact ⟨ts, hts⟩

private theorem towers_of_delWatcher {p : Point} {watcher objs : ObjectSet}
    {r : TowerAoi × ObjectSet × ObjectSet} (h : a.delWatcher id p watcher objs = some r) :
    ∃ ts, (a.viewTowers (a.cellToTower p)).towers = some ts := by
  simp only [delWatcher, addOrDeleteWatcher, if_true, Option.bind_eq_bind,
    Option.bind_eq_some_iff] at h
  obtain ⟨_, -, _, -, _, hloop, -⟩ := h
  exact towers_of_areaLoop hloop

/-- `MoveWatcher` between two towers returns only if the loops over the view of the new position
end. -/
private theorem towers_of_moveWatcher {out : MoveSets} {r : TowerAoi × MoveSets}
    (hne : a.towerOf op ≠ a.towerOf np) (h : a.moveWatcher id op np out = some r) :
    ∃ ts, (a.viewTowers (a.cellToTower np)).towers = some ts := by
  have hcell : a.cellToTower op ≠ a.cellToTower np := fun h ↦ hne (congrArg Point.toPair h)
  simp only [moveWatcher, if_neg hcell, Option.bind_eq_bind, Option.bind_eq_some_iff] at h
  obtain ⟨_, -, _, -, _, -, _, -, _, hloop, -⟩ := h
  exact towers_of_areaLoop hloop

/-- One axis of the tower of a cell, on a grid that has any tower at all; a negative tower size
leaves a single cell. -/
private theorem tower_axis {w n t : Int} {c : Coordinate} (hn : towerCount w t = some n)
    (hpos : 0 < n) (hc₀ : 0 ≤ c.toInt) (hc₁ : c.toInt < w) :
    0 ≤ (Int16.ofInt (c.toInt.tdiv t)).toInt ∧ (Int16.ofInt (c.toInt.tdiv t)).toInt < n := by
  have hcount := towerCount_eq hn
  have hmax := c.toInt_le
  rcases lt_trichotomy t 0 with ht | rfl | ht
  · have hone : w = 1 := by
      by_contra hne
      rcases le_or_gt 0 (w + t - 1) with htop | htop
      · have := Int.tdiv_nonpos_of_nonneg_of_nonpos htop ht.le
        omega
      · have hsmall := Int.tdiv_eq_zero_of_lt (a := -(w + t - 1)) (b := -t) (by omega) (by omega)
        rw [Int.neg_tdiv_neg] at hsmall
        omega
    rw [show c.toInt = 0 by omega, Int.zero_tdiv]
    exact ⟨le_rfl, hpos⟩
  · simp [hcount] at hpos
  · have hlt := Int.ediv_lt_of_lt_mul ht (hc₁.trans_le (le_towerCount_mul ht hn))
    have hle := Int.ediv_le_self t hc₀
    have hdiv := Int.ediv_nonneg hc₀ ht.le
    rw [Int.tdiv_eq_ediv_of_nonneg hc₀, toInt_ofInt_of_fits (by omega) (by omega)]
    exact ⟨hdiv, hlt⟩

/-- On a grid with a tower, every cell of the map has its tower in the grid. -/
theorem Sized.inGrid_towerOf {w h tw th vw vh : Int} {g : TowerInfo}
    (hg : Sized w h tw th vw vh g) (hs : g.InGrid s) {p : Point} (hp : g.InMap p) :
    g.InGrid (g.towerOf p) := by
  obtain ⟨⟨hx₀, hx₁⟩, hy₀, hy₁⟩ := hs
  obtain ⟨⟨hpx₀, hpx₁⟩, hpy₀, hpy₁⟩ := hp
  rw [hg.weight] at hpx₁
  rw [hg.hight] at hpy₁
  have hx := tower_axis hg.towerXN (by omega) hpx₀ hpx₁
  have hy := tower_axis hg.towerYN (by omega) hpy₀ hpy₁
  rw [← hg.towerWeight] at hx
  rw [← hg.towerHight] at hy
  exact ⟨hx, hy⟩

/-- **Moving agrees with leaving and re-entering** exactly when the windows' loops end and the move
either stays in one tower, where the watcher must be alone in its window, or joins two towers, where
the loops must not leave it behind in the watchers of one of them only. -/
theorem agreesWithReentry_iff {w h tw th vw vh : Int} {mid : MapId} {a₀ : TowerAoi}
    (hnew : new w h tw th vw vh mid = some a₀) (hsq : a₀.towerXN = a₀.towerYN)
    (hrep : Represents a₀.toTowerInfo a B) (hid : B id = some (.watcher, a.towerOf op))
    (hnp : a.InMap np) : a.AgreesWithReentry id op np ↔ a.ReentryFits B id op np := by
  have hg := ofSizes_eq_some (new_steps hnew).1
  have hinfo := hrep.info
  rw [← hinfo] at hg hsq hrep
  have hs := hrep.inGrid _ _ _ hid
  have ht := hg.inGrid_towerOf hs hnp
  have hwindow : ∀ {p ts}, (a.viewTowers p).towers = some ts → ∀ u ∈ ts, a.InGrid u := by
    intro p ts hts u hu
    obtain ⟨⟨hx₀, hx₁⟩, hy₀, hy₁⟩ := hs
    exact TowerInfo.inGrid_of_mem_towers (by omega) (by omega) hts hu
  constructor
  · intro hagree
    have hcalls := hagree
    obtain ⟨_, _, _, _, _, _, _, _, hdel, -, hmove, -⟩ := hcalls
    obtain ⟨ls, hls⟩ := towers_of_delWatcher hdel
    by_cases hsame : a.towerOf op = a.towerOf np
    · have hcell : a.cellToTower op = a.cellToTower np := Point.toPair_injective hsame
      refine ⟨ls, ls, hls, by rw [← hcell]; exact hls, ?_⟩
      rw [if_pos hsame]
      exact (agreesWithReentry_iff_of_towerOf_eq hsq hrep hid hs hls hsame).1 hagree
    · obtain ⟨lt, hlt⟩ := towers_of_moveWatcher hsame hmove
      refine ⟨ls, lt, hls, hlt, ?_⟩
      rw [if_neg hsame]
      exact (agreesWithReentry_iff_of_ne hsq hrep hid hs ht hls hlt (hwindow hls) (hwindow hlt)
        hsame).1 hagree
  · rintro ⟨ls, lt, hls, hlt, hfit⟩
    split_ifs at hfit with hsame
    · exact (agreesWithReentry_iff_of_towerOf_eq hsq hrep hid hs hls hsame).2 hfit
    · exact (agreesWithReentry_iff_of_ne hsq hrep hid hs ht hls hlt (hwindow hls) (hwindow hlt)
        hsame).2 hfit

/-- Where the windows are not cut, the answer is incomplete exactly for a move inside one tower with
somebody else in the window. -/
theorem reentryFits_iff_of_sound (hg : a.Sound) (hop : a.InMap op) (hnp : a.InMap np)
    (hgrid : ∀ i r u, B i = some (r, u) → a.InGrid u) :
    a.ReentryFits B id op np ↔ a.towerOf op ≠ a.towerOf np ∨
      ∀ i, i ≠ id → ¬ B.Within a.Near (a.towerOf op) i := by
  obtain ⟨ls, hls, hmem⟩ := TowerInfo.exists_towers_viewTowers hg.toRegular hop
  obtain ⟨lt, hlt, -⟩ := TowerInfo.exists_towers_viewTowers hg.toRegular hnp
  have hs := TowerInfo.inGrid_towerOf hg.toRegular hop
  have ht := TowerInfo.inGrid_towerOf hg.toRegular hnp
  have hrefl := hg.near_refl (a.towerOf op)
  have halone : (∀ i, i ≠ id → ∀ u ∈ ls, ¬ B.At i u) ↔
      ∀ i, i ≠ id → ¬ B.Within a.Near (a.towerOf op) i := by
    refine forall_congr' fun i ↦ imp_congr_right fun _ ↦ ?_
    constructor
    · rintro h ⟨u, ⟨r, hu⟩, hn⟩
      exact h u ((hmem u).2 ⟨hgrid i r u hu, hn⟩) ⟨r, hu⟩
    · intro h u hu hat
      exact h ⟨u, hat, ((hmem u).1 hu).2⟩
  constructor
  · rintro ⟨ls', lt', hls', -, hfit⟩
    obtain rfl := Option.some.inj (hls.symm.trans hls')
    split_ifs at hfit with hsame
    · exact .inr (halone.1 hfit.2)
    · exact .inl hsame
  · intro h
    refine ⟨ls, lt, hls, hlt, ?_⟩
    split_ifs with hsame
    · exact ⟨hrefl, halone.2 (h.resolve_left (not_not.2 hsame))⟩
    · -- Neither tower keeps the id: both lie in the window if they are near at all.
      simp only [hmem, hs, ht, hrefl, true_and, and_not_self, not_true, and_false]

/-- The map of `GameMap::TestTnit` with two watchers on its first cell. -/
private theorem exists_two_watchers :
    ∃ a₀ a, new 100 100 5 5 20 20 1 = some a₀ ∧ a₀.Sound ∧
      a₀.toTowerInfo = ⟨100, 100, 20, 20, 4, 4, 20, 20, 5, 5, 1⟩ ∧
      Represents a₀.toTowerInfo a
        ((Board.empty.put 1 .watcher (0, 0)).put 2 .watcher (0, 0)) := by
  have hsizes : ofSizes 100 100 5 5 20 20 1 = some ⟨100, 100, 20, 20, 4, 4, 20, 20, 5, 5, 1⟩ := rfl
  obtain ⟨a₀, hnew, hinfo⟩ := exists_new hsizes (by decide) (by decide) (by decide) (.inl rfl)
  have hsound : a₀.Sound := new_sound hnew (by decide) (by decide) (by rw [hinfo]; decide)
    (by rw [hinfo]; decide) (by rw [hinfo]) (by rw [hinfo]; decide) (by rw [hinfo]; decide)
  have hcell : a₀.InMap ⟨0, 0⟩ := by rw [hinfo]; decide
  have htower : a₀.towerOf ⟨0, 0⟩ = (0, 0) := by rw [hinfo]; decide
  obtain ⟨a₁, _, _, -, h₁, -⟩ := addWatcher_spec hsound (new_represents hnew) hcell
    (.inl (Board.empty_apply 1)) ∅ ∅
  obtain ⟨a₂, _, _, -, h₂, -⟩ := addWatcher_spec hsound h₁ hcell
    (.inl (Board.put_of_ne (show (2 : ObjectId) ≠ 1 by decide))) ∅ ∅
  rw [htower] at h₂
  exact ⟨a₀, a₂, hnew, hsound, hinfo, h₂⟩

/-- A move across the map of the repository: it agrees with leaving and entering again. -/
theorem agreesWithReentry_testTnit :
    ∃ a : TowerAoi, a.towerOf ⟨0, 0⟩ ≠ a.towerOf ⟨99, 99⟩ ∧
      a.AgreesWithReentry 1 ⟨0, 0⟩ ⟨99, 99⟩ := by
  obtain ⟨a₀, a, hnew, hsound, hsizes, hrep⟩ := exists_two_watchers
  have hinfo := hrep.info.trans hsizes
  have hne : a.towerOf ⟨0, 0⟩ ≠ a.towerOf ⟨99, 99⟩ := by rw [hinfo]; decide
  have hop : a.InMap ⟨0, 0⟩ := by rw [hinfo]; decide
  have hnp : a.InMap ⟨99, 99⟩ := by rw [hinfo]; decide
  refine ⟨a, hne, (agreesWithReentry_iff hnew hsound.square hrep ?_ hnp).2
    ((reentryFits_iff_of_sound (hrep.info ▸ hsound) hop hnp ?_).2 (.inl hne))⟩
  · rw [hinfo]
    decide
  · rw [hrep.info]
    exact hrep.inGrid

/-- One step inside the first tower, in sight of another watcher: re-entering reports it as an
object that stays in view, moving does not. -/
theorem not_agreesWithReentry_testTnit :
    ∃ a₀ a B, new 100 100 5 5 20 20 1 = some a₀ ∧ a₀.towerXN = a₀.towerYN ∧
      Represents a₀.toTowerInfo a B ∧ B 1 = some (.watcher, a.towerOf ⟨0, 0⟩) ∧
      a.InMap ⟨0, 0⟩ ∧ a.InMap ⟨1, 0⟩ ∧ ¬ a.AgreesWithReentry 1 ⟨0, 0⟩ ⟨1, 0⟩ := by
  obtain ⟨a₀, a, hnew, hsound, hsizes, hrep⟩ := exists_two_watchers
  have hop : a.InMap ⟨0, 0⟩ := by rw [hrep.info, hsizes]; decide
  have hnp : a.InMap ⟨1, 0⟩ := by rw [hrep.info, hsizes]; decide
  have hsame : a.towerOf ⟨0, 0⟩ = a.towerOf ⟨1, 0⟩ := by rw [hrep.info, hsizes]; decide
  have hzero : a.towerOf ⟨0, 0⟩ = (0, 0) := by rw [hrep.info, hsizes]; decide
  have hid : (Board.empty.put (1 : ObjectId) .watcher (0, 0)).put 2 .watcher (0, 0) 1 =
      some (.watcher, a.towerOf ⟨0, 0⟩) := by
    rw [hzero]
    decide
  refine ⟨a₀, a, _, hnew, hsound.square, hrep, hid, hop, hnp, fun hagree ↦ ?_⟩
  have hsound' : a.Sound := hrep.info ▸ hsound
  rw [← hrep.info] at hrep
  obtain ⟨ls, hls, hmem⟩ := TowerInfo.exists_towers_viewTowers hsound'.toRegular hop
  have hgrid := TowerInfo.inGrid_towerOf hsound'.toRegular hop
  have halone := ((agreesWithReentry_iff_of_towerOf_eq hsound'.square hrep hid hgrid hls hsame).1
    hagree).2
  exact halone 2 (by decide) _ ((hmem _).2 ⟨hgrid, hsound'.near_refl _⟩)
    ⟨.watcher, by rw [hzero]; exact Board.put_self⟩

end TowerAoi

end QCLib
