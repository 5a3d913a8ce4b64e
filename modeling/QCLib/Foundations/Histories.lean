import Mathlib.Data.List.Basic

/-!
# Histories

A history is a list that grows at its end, oldest entry first. What an entry is allowed to be may
depend on what came before it (`Each`); such a condition is checked once, when the entry is added.

The list carries nothing but its entries: what an entry means, and which earlier ones it needs, is
the predicate `P`. `Each.concat` is the only way in which a history grows, so an invariant about
histories is shown one entry at a time.
-/

namespace Histories

variable {α : Type*} {P Q : List α → α → Prop} {history : List α} {x : α}

/-- Every entry is allowed after what came before it. -/
def Each (P : List α → α → Prop) (history : List α) : Prop :=
  ∀ pre y post, history = pre ++ y :: post → P pre y

theorem each_nil : Each P [] := fun pre _ _ h ↦
  absurd h.symm (List.append_ne_nil_of_right_ne_nil pre (List.cons_ne_nil _ _))

/-- One more entry. -/
theorem Each.concat (h : Each P history) (hx : P history x) : Each P (history ++ [x]) := by
  intro pre y post hsplit
  rcases List.eq_nil_or_concat post with rfl | ⟨post', z, rfl⟩
  · obtain ⟨rfl, hxy⟩ := List.append_inj' hsplit rfl
    exact (List.cons.inj hxy).1 ▸ hx
  · have hreassoc : history ++ [x] = (pre ++ y :: post') ++ [z] := by
      rw [hsplit]
      simp
    exact h pre y post' (List.append_inj' hreassoc rfl).1

/-- Entries that are there already may be left out of account. -/
theorem each_of_length_le : Each (fun pre y ↦ history.length ≤ pre.length → P pre y) history := by
  intro pre y post hsplit hle
  rw [hsplit, List.length_append, List.length_cons] at hle
  omega

end Histories
