import Mathlib.Data.Int.Range
import Mathlib.Data.List.Nodup
import Mathlib.Tactic.SplitIfs

/-!
# Partial primitives of the C++ abstract machine

Vector accesses, counting loops and signed arithmetic, as `Option`-valued functions: `none` is an
operation with undefined behaviour. A model built from them is defined on an input exactly when
the program it embeds stays inside its vectors and inside `int32_t` there, so "every index is in
range" becomes "the model returns `some`".

Vectors are lists and indices are integers: a negative index converts to a huge `size_t` and is out
of range like any other.

Loops that test with `!=` are the reason for `neRange`: they count up to their bound if they begin
below it, and otherwise run on until something overflows, which is undefined. `neLoops` nests two of
them in the order of the source. Where a loop is defined it is an ordinary range (`neRange_of_le`),
and no later proof goes back to the counting.
-/

namespace CSemantics

variable {α : Type*}

/-! ### Vectors -/

/-- `v[i]`. -/
def vecAt (v : List α) (i : Int) : Option α :=
  if 0 ≤ i then v[i.toNat]? else none

/-- `f(v[i])` applied in place. -/
def vecModify (v : List α) (i : Int) (f : α → α) : Option (List α) :=
  if 0 ≤ i ∧ i < v.length then some (v.modify i.toNat f) else none

theorem vecAt_isSome_iff {v : List α} {i : Int} :
    (vecAt v i).isSome ↔ 0 ≤ i ∧ i < v.length := by
  unfold vecAt
  split_ifs with h
  · simp only [isSome_getElem?]
    omega
  · simp only [Option.isSome_none, Bool.false_eq_true, false_iff]
    omega

theorem exists_vecAt {v : List α} {i : Int} (h₀ : 0 ≤ i) (h₁ : i < v.length) :
    ∃ x, vecAt v i = some x :=
  Option.isSome_iff_exists.1 (vecAt_isSome_iff.2 ⟨h₀, h₁⟩)

/-- Changing an element is defined inside the vector, and changes that element alone. -/
theorem vecModify_eq_some_iff {v v' : List α} {i : Int} {f : α → α} :
    vecModify v i f = some v' ↔ (0 ≤ i ∧ i < v.length) ∧ v' = v.modify i.toNat f := by
  unfold vecModify
  split_ifs with h <;> simp [h, eq_comm]

/-- What an in-place update does to every element. -/
theorem vecAt_modify {v : List α} {i j : Int} {f : α → α} (h₀ : 0 ≤ i) :
    vecAt (v.modify i.toNat f) j = if j = i then (vecAt v j).map f else vecAt v j := by
  unfold vecAt
  by_cases hj : 0 ≤ j
  · simp only [hj, if_true, List.getElem?_modify]
    by_cases hij : j = i
    · simp [hij]
    · have : i.toNat ≠ j.toNat := by omega
      simp [hij, this]
  · have : j ≠ i := by omega
    simp [hj]

/-! ### Counting loops -/

/-- The values a `for (v = lo; v != hi; ++v)` loop runs through. Above its bound the counter never
meets it and overflows. -/
def neRange (lo hi : Int) : Option (List Int) :=
  if lo ≤ hi then some (Int.range lo hi) else none

/-- A loop that tests with `!=` ends when it counts up to its bound. -/
theorem neRange_of_le {lo hi : Int} (h : lo ≤ hi) : neRange lo hi = some (Int.range lo hi) := by
  simp [neRange, h]

/-- The index pairs `(x, y)` of two nested `!=` loops, `y` in the outer one. -/
def neLoops (x₀ x₁ y₀ y₁ : Int) : Option (List (Int × Int)) := do
  let ys ← neRange y₀ y₁
  let rows ← ys.mapM fun y ↦ (neRange x₀ x₁).map fun xs ↦ xs.map fun x ↦ (x, y)
  return rows.flatten

/-- Two nested loops that test with `!=` visit the rows one after another. -/
theorem neLoops_of_le {x₀ x₁ y₀ y₁ : Int} (hx : x₀ ≤ x₁) (hy : y₀ ≤ y₁) :
    neLoops x₀ x₁ y₀ y₁ =
      some ((Int.range y₀ y₁).flatMap fun y ↦ (Int.range x₀ x₁).map fun x ↦ (x, y)) := by
  simp only [neLoops, neRange_of_le hx, neRange_of_le hy, Option.map_some, Option.bind_eq_bind,
    Option.bind_some, List.flatMap]
  rw [show (fun y ↦ some ((Int.range x₀ x₁).map fun x ↦ (x, y))) =
      fun y ↦ pure ((Int.range x₀ x₁).map fun x ↦ (x, y)) from rfl, List.mapM_pure]
  rfl

/-- Where the loops are defined they run through exactly the rectangle. -/
theorem exists_neLoops {x₀ x₁ y₀ y₁ : Int} (hx : x₀ ≤ x₁) (hy : y₀ ≤ y₁) :
    ∃ l, neLoops x₀ x₁ y₀ y₁ = some l ∧
      ∀ c : Int × Int, c ∈ l ↔ (x₀ ≤ c.1 ∧ c.1 < x₁) ∧ y₀ ≤ c.2 ∧ c.2 < y₁ := by
  refine ⟨_, neLoops_of_le hx hy, fun c ↦ ?_⟩
  obtain ⟨x, y⟩ := c
  simp only [List.mem_flatMap, List.mem_map, Int.mem_range_iff, Prod.mk.injEq]
  constructor
  · rintro ⟨y', hy', x', hx', rfl, rfl⟩
    exact ⟨hx', hy'⟩
  · rintro ⟨hx', hy'⟩
    exact ⟨y, hy', x, hx', rfl, rfl⟩

private theorem nodup_range {lo hi : Int} : (Int.range lo hi).Nodup := by
  unfold Int.range
  exact List.nodup_range.map fun r s h ↦ by omega

/-- The pairs of a rectangle, row by row, are listed once each. -/
private theorem nodup_rectangle {x₀ x₁ y₀ y₁ : Int} :
    ((Int.range y₀ y₁).flatMap fun y ↦ (Int.range x₀ x₁).map fun x ↦ (x, y)).Nodup := by
  rw [List.nodup_flatMap]
  refine ⟨fun y _ ↦ nodup_range.map fun x x' h ↦ (Prod.mk.inj h).1, ?_⟩
  refine nodup_range.imp fun hne ↦ ?_
  rintro ⟨x, y⟩ hmem hmem'
  obtain ⟨_, -, h⟩ := List.mem_map.1 hmem
  obtain ⟨_, -, h'⟩ := List.mem_map.1 hmem'
  exact hne ((Prod.mk.inj h).2.trans (Prod.mk.inj h').2.symm)

/-- The loops are defined exactly where neither starts above its bound; the inner one only has to be
right if it is entered at all. -/
theorem neLoops_isSome_iff {x₀ x₁ y₀ y₁ : Int} :
    (neLoops x₀ x₁ y₀ y₁).isSome ↔ y₀ ≤ y₁ ∧ (y₀ < y₁ → x₀ ≤ x₁) := by
  by_cases hy : y₀ ≤ y₁
  · by_cases hx : x₀ ≤ x₁
    · simp [neLoops_of_le hx hy, hx, hy]
    · have hnone : neRange x₀ x₁ = none := by simp [neRange, hx]
      rcases hy.lt_or_eq with hlt | rfl
      · obtain ⟨y, ys, hcons⟩ := List.exists_cons_of_ne_nil
          (List.ne_nil_of_mem (Int.mem_range_iff.2 ⟨le_refl y₀, hlt⟩))
        simp [neLoops, neRange_of_le hy, hnone, hcons, hlt, hx]
      · simp [neLoops, neRange_of_le hy, Int.range]
  · have hnone : neRange y₀ y₁ = none := by simp [neRange, hy]
    simp [neLoops, hnone, hy]

/-- **What defined loops run through**: the rectangle, each pair once. -/
theorem neLoops_eq_some {x₀ x₁ y₀ y₁ : Int} {l : List (Int × Int)}
    (h : neLoops x₀ x₁ y₀ y₁ = some l) :
    l.Nodup ∧ ∀ c : Int × Int, c ∈ l ↔ (x₀ ≤ c.1 ∧ c.1 < x₁) ∧ y₀ ≤ c.2 ∧ c.2 < y₁ := by
  obtain ⟨hy, hx⟩ := neLoops_isSome_iff.1 (by rw [h]; rfl)
  rcases hy.lt_or_eq with hlt | rfl
  · obtain rfl := Option.some.inj ((neLoops_of_le (hx hlt) hy).symm.trans h)
    refine ⟨nodup_rectangle, fun c ↦ ?_⟩
    obtain ⟨l, hl, hmem⟩ := exists_neLoops (hx hlt) hy
    obtain rfl := Option.some.inj ((neLoops_of_le (hx hlt) hy).symm.trans hl)
    exact hmem c
  · have hnil : neLoops x₀ x₁ y₀ y₀ = some [] := by
      simp [neLoops, neRange_of_le le_rfl, Int.range]
    obtain rfl := Option.some.inj (hnil.symm.trans h)
    refine ⟨List.nodup_nil, fun c ↦ ?_⟩
    simp only [List.not_mem_nil, false_iff]
    omega

/-! ### Signed 32-bit arithmetic -/

/-- The result of an `int32_t` operation whose mathematical value is `v`. -/
def int32 (v : Int) : Option Int :=
  if -2 ^ 31 ≤ v ∧ v < 2 ^ 31 then some v else none

/-- Arithmetic is defined while the result fits, and then it is exact. -/
theorem int32_eq_some_iff {v r : Int} :
    int32 v = some r ↔ (-2 ^ 31 ≤ v ∧ v < 2 ^ 31) ∧ r = v := by
  unfold int32
  split_ifs with h
  · simp only [Option.some.injEq, h, true_and, eq_comm]
  · simp only [h, false_and]

/-- `a / b` in `int32_t`. -/
def div32 (a b : Int) : Option Int :=
  if b = 0 then none else int32 (a.tdiv b)

end CSemantics
