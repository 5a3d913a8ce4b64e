import Mathlib.Data.List.Induction
import Mathlib.Data.List.Nodup
import Mathlib.Logic.Function.Basic

/-!
# Indexes that are inverse to each other

A table `f` of partners for the elements of `α`, and a table `g` for those of `β`, are **inverse**
when each holds exactly the entries of the other, read backwards. Both are changed together:
`unlink` removes a pair, and `link_iff` says when adding one keeps the tables inverse, namely when
neither side had a partner before.

An index is often filled from a list (`getElem?_foldl_insert`).

Both tables are partial functions, so that the library does not depend on how a program stores them;
a program's maps are turned into functions where the library is used. `linkNew_iff` is the variant
for an index that leaves an existing entry alone, which is what `insert` of `std::map` does.
-/

namespace Indexes

variable {α β : Type*} [DecidableEq α] [DecidableEq β] {f : α → Option β} {g : β → Option α} {a : α}
  {b : β}

/-- Each table holds the entries of the other. -/
def Inverse (f : α → Option β) (g : β → Option α) : Prop := ∀ a b, f a = some b ↔ g b = some a

/-- **Removing.** A pair may go when neither side has another partner. -/
theorem Inverse.unlink (h : Inverse f g) (hab : ∀ b', f a = some b' → b' = b)
    (hba : ∀ a', g b = some a' → a' = a) :
    Inverse (Function.update f a none) (Function.update g b none) := by
  intro a' b'
  rcases eq_or_ne a' a with rfl | ha
  · refine iff_of_false (by simp) fun hg ↦ ?_
    rcases eq_or_ne b' b with rfl | hb
    · simp at hg
    · rw [Function.update_of_ne hb] at hg
      exact hb (hab b' ((h a' b').2 hg))
  · rw [Function.update_of_ne ha]
    rcases eq_or_ne b' b with rfl | hb
    · refine iff_of_false (fun hf ↦ ha ?_) (by simp)
      exact hba a' ((h a' b').1 hf)
    · rw [Function.update_of_ne hb]
      exact h a' b'

/-- **Adding.** A pair with a new left side may come when its right side has no partner, and only
then: otherwise the old entry stays behind. -/
theorem Inverse.link_iff (h : Inverse f g) (ha : f a = none) :
    Inverse (Function.update f a (some b)) (Function.update g b (some a)) ↔ g b = none := by
  constructor
  · intro h'
    refine Option.eq_none_iff_forall_ne_some.2 fun a' hg ↦ ?_
    have hf := (h a' b).2 hg
    have hne : a' ≠ a := by
      rintro rfl
      rw [ha] at hf
      exact Option.some_ne_none b hf.symm
    have hg' := (h' a' b).1 (by rw [Function.update_of_ne hne, hf])
    rw [Function.update_self, Option.some.injEq] at hg'
    exact hne hg'.symm
  · intro hb a' b'
    rcases eq_or_ne a' a with rfl | hne
    · rw [Function.update_self, Option.some.injEq]
      rcases eq_or_ne b' b with rfl | hne
      · rw [Function.update_self]
        exact iff_of_true rfl rfl
      · rw [Function.update_of_ne hne]
        refine iff_of_false hne.symm fun hg ↦ ?_
        rw [(h a' b').2 hg] at ha
        exact Option.some_ne_none b' ha
    · rw [Function.update_of_ne hne]
      rcases eq_or_ne b' b with rfl | hb'
      · rw [Function.update_self, Option.some.injEq]
        refine iff_of_false (fun hf ↦ ?_) hne.symm
        rw [(h a' b').1 hf] at hb
        exact Option.some_ne_none a' hb
      · rw [Function.update_of_ne hb']
        exact h a' b'

/-- **Adding where the partner is kept.** When the other table keeps the partner it has, the tables
stay inverse exactly when it had none. -/
theorem Inverse.linkNew_iff (h : Inverse f g) (ha : f a = none) :
    Inverse (Function.update f a (some b))
      (if g b = none then Function.update g b (some a) else g) ↔ g b = none := by
  rcases Decidable.em (g b = none) with hb | hb
  · rw [if_pos hb]
    exact h.link_iff ha
  · rw [if_neg hb]
    refine iff_of_false (fun h' ↦ ?_) hb
    -- The kept partner is not the new one, which was in no entry.
    have hg : g b = some a := (h' a b).1 (Function.update_self ..)
    rw [(h a b).2 hg] at ha
    exact Option.some_ne_none b ha

/-! ### Filling a map -/

section Filling

variable {α κ ν : Type*} [Ord κ] [Std.TransOrd κ] [Std.LawfulEqOrd κ] {l : List α} {key : α → κ}
  {value : α → ν}

/-- **Filling a map** from a list with a key for each element: what is new, and what was there. -/
theorem getElem?_foldl_insert (hnodup : (l.map key).Nodup) (map : Std.ExtTreeMap κ ν) (k : κ)
    (v : ν) :
    (l.foldl (fun map a ↦ map.insert (key a) (value a)) map)[k]? = some v ↔
      (∃ a ∈ l, key a = k ∧ value a = v) ∨ (k ∉ l.map key ∧ map[k]? = some v) := by
  induction l using List.reverseRecOn with
  | nil => simp
  | append_singleton l a ih =>
    rw [List.map_append, List.nodup_append] at hnodup
    rw [List.foldl_append, List.foldl_cons, List.foldl_nil, Std.ExtTreeMap.getElem?_insert]
    have hold : ∀ a' ∈ l, key a' ≠ key a := fun a' ha' ↦
      hnodup.2.2 _ (List.mem_map_of_mem ha') _ (List.mem_map_of_mem List.mem_cons_self)
    by_cases hk : key a = k
    · subst hk
      rw [if_pos Std.ReflCmp.compare_self]
      simp only [List.mem_append, List.mem_singleton, Option.some.injEq, List.map_append,
        List.map_cons, List.map_nil, or_true, not_true_eq_false, false_and, or_false]
      constructor
      · rintro rfl
        exact ⟨a, .inr rfl, rfl, rfl⟩
      · rintro ⟨a', ha' | rfl, hkey, rfl⟩
        · exact absurd hkey (hold a' ha')
        · rfl
    · rw [if_neg (mt Std.LawfulEqOrd.compare_eq_iff_eq.1 hk), ih hnodup.1]
      simp only [List.mem_append, List.mem_singleton, List.map_append, List.map_cons, List.map_nil,
        Ne.symm hk, or_false]
      refine or_congr ⟨?_, ?_⟩ Iff.rfl
      · rintro ⟨a', ha', h⟩
        exact ⟨a', .inl ha', h⟩
      · rintro ⟨a', ha' | rfl, h⟩
        · exact ⟨a', ha', h⟩
        · exact absurd h.1 hk

end Filling

end Indexes
