import Mathlib

/-!
# Cells, areas and towers

The data of `tower.h`. A map is a grid of cells addressed by 16-bit coordinates; it is covered by a
coarser grid of *towers*, each holding the ids registered in it and the ids that watch it.

`ObjectSet` is `std::set<ObjectId>`: an ordered, extensional set, so two towers with the same
members are equal.
-/

namespace QCLib

/-- `MapId`, the number of a map. -/
abbrev MapId := UInt64

/-- A cell or tower coordinate; every store into one truncates to 16 bits. -/
abbrev Coordinate := Int16

/-- The id of a game object. -/
abbrev ObjectId := Int64

/-- A set of ids, iterated in ascending order. -/
abbrev ObjectSet := Std.ExtTreeSet ObjectId

theorem ObjectSet.mem_insert_iff {s : ObjectSet} {i j : ObjectId} :
    i ∈ s.insert j ↔ i = j ∨ i ∈ s := by
  rw [Std.ExtTreeSet.mem_insert, Std.compare_eq_iff_eq, eq_comm]

theorem ObjectSet.mem_erase_iff {s : ObjectSet} {i j : ObjectId} :
    i ∈ s.erase j ↔ i ≠ j ∧ i ∈ s := by
  rw [Std.ExtTreeSet.mem_erase, Ne, Std.compare_eq_iff_eq, eq_comm]

theorem ObjectSet.erase_of_notMem {s : ObjectSet} {i : ObjectId} (h : i ∉ s) : s.erase i = s := by
  refine Std.ExtTreeSet.ext_mem fun j ↦ ?_
  rw [mem_erase_iff, and_iff_right_of_imp]
  rintro hj rfl
  exact h hj

theorem ObjectSet.size_le_of_subset {s t : ObjectSet} (h : ∀ i, i ∈ s → i ∈ t) :
    s.size ≤ t.size := by
  rw [← Std.ExtTreeSet.size_inter_eq_size_left h]
  exact Std.ExtTreeSet.size_inter_le_size_right

theorem ObjectSet.size_pos_of_mem {s : ObjectSet} {i : ObjectId} (h : i ∈ s) : s.size > 0 := by
  refine Nat.pos_of_ne_zero fun hzero ↦ ?_
  rw [Std.ExtTreeSet.eq_empty_iff_size_eq_zero.2 hzero] at h
  exact Std.ExtTreeSet.not_mem_empty h

theorem ObjectSet.size_insert_of_notMem {s : ObjectSet} {i : ObjectId} (h : i ∉ s) :
    (s.insert i).size = s.size + 1 := by
  rw [Std.ExtTreeSet.size_insert, if_neg (by rwa [Std.ExtTreeSet.contains_iff_mem])]

/-- A set has at most as many elements as a list that covers it. -/
theorem ObjectSet.size_le_length {s : ObjectSet} {l : List ObjectId} (h : ∀ i, i ∈ s → i ∈ l) :
    s.size ≤ l.length := by
  have hnodup : s.toList.Nodup := s.ordered_toList.imp fun hlt heq ↦
    absurd (hlt.symm.trans (Std.compare_eq_iff_eq.2 heq)) (by decide)
  rw [← Std.ExtTreeSet.length_toList]
  exact (hnodup.subperm fun i hi ↦ h i (Std.ExtTreeSet.mem_toList.1 hi)).length_le

/-- A cell of the map, or a tower of the tower grid. -/
structure Point where
  x : Coordinate
  y : Coordinate
  deriving DecidableEq, Repr, Inhabited

namespace Point

/-- The constructor `Point(int32_t x, int32_t y)`. -/
def mk32 (x y : Int) : Point := ⟨Int16.ofInt x, Int16.ofInt y⟩

/-- The coordinates as integers. -/
def toPair (p : Point) : Int × Int := (p.x.toInt, p.y.toInt)

theorem toPair_injective : Function.Injective toPair := by
  rintro ⟨x, y⟩ ⟨x', y'⟩ h
  obtain ⟨hx, hy⟩ := Prod.mk.inj h
  exact congrArg₂ Point.mk (Int16.toInt_inj.1 hx) (Int16.toInt_inj.1 hy)

end Point

/-- A rectangle, half open: `leftUp` belongs to it, `rightDown` does not. -/
structure Area where
  leftUp : Point
  rightDown : Point
  deriving DecidableEq, Repr, Inhabited

/-- One tower: the ids registered in it and the ids watching it. -/
structure Tower where
  leftUp : Point
  id : Int
  objs : ObjectSet
  watchers : ObjectSet
  deriving DecidableEq, Inhabited

/-- `Tower::Init`, which sets the corner and the number of a tower. -/
def Tower.init (t : Tower) (lu : Point) (id : Int) : Tower := { t with leftUp := lu, id := id }

end QCLib
