import Mathlib.Tactic
import QCLib.Foundations.Framing

/-!
# Blocks of one length

A checksum is computed block by block: a function folds the blocks of the message into a state, and
what is left at the end is shorter than a block. The blocks are frames, so whoever takes them out of
a buffer in which the message arrives in chunks folds the same blocks (`drains_blocksOf` with
`Framing.Reader.Drains.append`).

Both ways of looking at the message are kept, the list of its blocks and the fold over them, and
`foldBlocks_append` is what a program that processes its input in portions relies on: what was left
over comes in front of what arrives next.
-/

namespace Blocks

open Framing

variable {α σ : Type*} {n : ℕ} {l m rest : List α} {bs : List (List α)}

/-- The whole blocks of a message. -/
def blocksOf (n : ℕ) (l : List α) : List (List α) :=
  (List.range (l.length / n)).map fun i ↦ (l.drop (n * i)).take n

/-- What is behind them. -/
def remainder (n : ℕ) (l : List α) : List α := l.drop (n * (l.length / n))

/-- A block is taken as soon as it is there. -/
def blockReader (α : Type*) (n : ℕ) : Reader α (List α) where
  ready l := n ≤ l.length
  take l := some (l.take n, l.drop n)
  ready_append b c h := by
    rw [decide_eq_true_eq] at h ⊢
    rw [List.length_append]
    omega
  take_append b c h := by
    rw [decide_eq_true_eq] at h
    rw [List.take_append_of_le_length h, List.drop_append_of_le_length h]
    rfl

theorem blocksOf_of_lt (h : l.length < n) : blocksOf n l = [] ∧ remainder n l = l := by
  rw [blocksOf, remainder, Nat.div_eq_of_lt h]
  exact ⟨rfl, List.drop_zero⟩

theorem blocksOf_of_le (hn : 0 < n) (h : n ≤ l.length) :
    blocksOf n l = l.take n :: blocksOf n (l.drop n) ∧
      remainder n l = remainder n (l.drop n) := by
  have hdiv : l.length / n = (l.drop n).length / n + 1 := by
    rw [List.length_drop, Nat.div_eq_sub_div hn h]
  have hdrop : ∀ i, l.drop (n * (i + 1)) = (l.drop n).drop (n * i) := by
    intro i
    rw [List.drop_drop, Nat.mul_succ, Nat.add_comm]
  constructor
  · rw [blocksOf, hdiv, List.range_succ_eq_map, List.map_cons, List.map_map, Nat.mul_zero,
      List.drop_zero]
    refine congrArg _ (List.map_congr_left fun i _ ↦ ?_)
    exact congrArg (List.take n) (hdrop i)
  · rw [remainder, hdiv, hdrop, remainder]

/-- **Reading blocks** ends with the whole blocks read, and what is behind them left. -/
theorem drains_blocksOf (hn : 0 < n) (l : List α) :
    (blockReader α n).Drains l (blocksOf n l) (remainder n l) := by
  induction hlen : l.length using Nat.strongRecOn generalizing l with
  | ind k ih =>
    by_cases h : n ≤ l.length
    · obtain ⟨hblocks, hremainder⟩ := blocksOf_of_le hn h
      rw [hblocks, hremainder]
      refine (Reader.drains_iff_of_ready (decide_eq_true h)).2 ⟨_, _, _, rfl, rfl, ?_⟩
      exact ih (l.drop n).length (by rw [List.length_drop]; omega) _ rfl
    · obtain ⟨hblocks, hremainder⟩ := blocksOf_of_lt (Nat.lt_of_not_le h)
      rw [hblocks, hremainder]
      exact ⟨.nil l, decide_eq_false h⟩

/-- The remainder of the list is as long as the remainder of its length. -/
theorem length_remainder (n : ℕ) (l : List α) : (remainder n l).length = l.length % n := by
  rw [remainder, List.length_drop, Nat.mod_def]

/-- When a message goes on, its new blocks begin with what was left over. -/
theorem blocksOf_append (hn : 0 < n) (l m : List α) :
    blocksOf n (l ++ m) = blocksOf n l ++ blocksOf n (remainder n l ++ m) ∧
      remainder n (l ++ m) = remainder n (remainder n l ++ m) :=
  (drains_blocksOf hn (l ++ m)).unique
    ((drains_blocksOf hn l).append (drains_blocksOf hn (remainder n l ++ m)))

/-- The state after the whole blocks of a message. -/
def foldBlocks (f : σ → List α → σ) (n : ℕ) (s : σ) (l : List α) : σ := (blocksOf n l).foldl f s

variable {f : σ → List α → σ} {s : σ}

theorem foldBlocks_of_lt (h : l.length < n) : foldBlocks f n s l = s := by
  rw [foldBlocks, (blocksOf_of_lt h).1]
  rfl

theorem foldBlocks_of_le (hn : 0 < n) (h : n ≤ l.length) :
    foldBlocks f n s l = foldBlocks f n (f s (l.take n)) (l.drop n) := by
  rw [foldBlocks, (blocksOf_of_le hn h).1]
  rfl

/-- What was left over comes in front of the next bytes. With this, bytes can be processed in
portions. -/
theorem foldBlocks_append (hn : 0 < n) (s : σ) (l m : List α) :
    foldBlocks f n s (l ++ m) = foldBlocks f n (foldBlocks f n s l) (remainder n l ++ m) := by
  rw [foldBlocks, (blocksOf_append hn l m).1, List.foldl_append]
  rfl

end Blocks
