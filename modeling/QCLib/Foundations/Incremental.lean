import Mathlib.Data.List.Basic

/-!
# Machines that eat a buffer from the front

A machine looks at the buffer and takes some symbols off its front, or waits until there are more.
What arrives later does not change a step that can be taken, and every step makes something smaller,
so the machine works until it waits: `drain`.

It does not matter whether the input arrives at once or in two portions, with the machine at work in
between (`drain_append`); so it does not matter in how many.

The difference to `Foundations.Framing` is that a machine has a state between two steps, so that it
may stop in the middle of a frame. A step that waits must wait for more input and nothing else
(`eq_nil_of_waits` draws the conclusion), and a measure on states and buffers must fall with every
step. The reader of replies is its instance (`Store.RedisReader`).
-/

/-- A machine with states `σ`, whose steps are stable under later arrivals. -/
structure Machine (σ α : Type*) where
  step : σ → List α → Option (σ × List α)
  size : σ → List α → ℕ
  step_append : ∀ s b c s' r, step s b = some (s', r) → step s (b ++ c) = some (s', r ++ c)
  size_lt : ∀ s b s' r, step s b = some (s', r) → size s' r < size s b

namespace Machine

variable {σ α : Type*} (M : Machine σ α)

/-- Work until there is nothing to be done with what is in the buffer. -/
def drain (s : σ) (b : List α) : σ × List α :=
  match _h : M.step s b with
  | some (s', r) => drain s' r
  | none => (s, b)
termination_by M.size s b
decreasing_by exact M.size_lt s b s' r ‹_›

variable {M} {s s' : σ} {b c r : List α}

theorem drain_of_step (h : M.step s b = some (s', r)) : M.drain s b = M.drain s' r := by
  rw [drain]
  split
  · next s₁ r₁ h₁ =>
    obtain ⟨rfl, rfl⟩ := Prod.mk.inj (Option.some.inj (h₁.symm.trans h))
    rfl
  · next h₁ =>
    rw [h] at h₁
    cases h₁

theorem drain_of_waits (h : M.step s b = none) : M.drain s b = (s, b) := by
  rw [drain]
  split
  · next s₁ r₁ h₁ =>
    rw [h] at h₁
    cases h₁
  · rfl

/-- What is true of where it starts and kept by its steps is true of where it waits. -/
theorem drain_inv {P : σ → List α → Prop}
    (hstep : ∀ s b s' r, P s b → M.step s b = some (s', r) → P s' r) (h : P s b) :
    P (M.drain s b).1 (M.drain s b).2 := by
  induction hn : M.size s b using Nat.strongRecOn generalizing s b with
  | ind n ih =>
    cases hs : M.step s b with
    | none => rwa [drain_of_waits hs]
    | some x =>
      rw [drain_of_step hs]
      exact ih _ (hn ▸ M.size_lt s b x.1 x.2 hs) (hstep s b x.1 x.2 h hs) rfl

/-- **More input.** The machine goes on from where it waits. -/
theorem drain_append (s : σ) (b c : List α) :
    M.drain s (b ++ c) = M.drain (M.drain s b).1 ((M.drain s b).2 ++ c) := by
  induction hn : M.size s b using Nat.strongRecOn generalizing s b with
  | ind n ih =>
    cases h : M.step s b with
    | none => rw [drain_of_waits h]
    | some x =>
      rw [drain_of_step (M.step_append s b c x.1 x.2 h), drain_of_step h]
      exact ih _ (hn ▸ M.size_lt s b x.1 x.2 h) _ _ rfl

/-- **Not before the end.** A machine that comes to a state which waits for good, with nothing left,
has not come to such a state earlier. -/
theorem eq_nil_of_waits (h : M.drain s (b ++ c) = (s', []))
    (hwaits : ∀ d, M.step (M.drain s b).1 d = none) : c = [] := by
  rw [drain_append, drain_of_waits (hwaits _)] at h
  exact (List.append_eq_nil_iff.1 (Prod.mk.inj h).2).2

end Machine
