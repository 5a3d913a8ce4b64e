import Mathlib.Algebra.Group.Nat.Defs
import Mathlib.Data.List.Basic
import Mathlib.Tactic.SplitIfs

/-!
# Bytes and little-endian numbers

A region of memory is the list of its bytes, from a pointer to the end of its allocation; `none` is
an access beyond that end. Numbers are stored little-endian: `bytesLE n v` are the `n` bytes of `v`,
and `natLE` reads a number back.

A read of a field sees only the bytes of the field (`leAt_congr`), and copying writes only the bytes
it copies to (`memcpy`).

`leAt off n m` reads `n` bytes at an offset, where they are, and `memcpy dst off src n` copies where
there is room. The results come in pairs, one for the bytes that are concerned (`leAt_append_right`,
`drop_store`) and one for those that are not (`leAt_append`, `leAt_take_append`), so a record with
several fields is read back field by field.
-/

namespace Bytes

/-! ### Little-endian numbers -/

/-- The low `n` bytes of a number, low byte first. -/
def bytesLE : Nat → Nat → List UInt8
  | 0, _ => []
  | n + 1, v => UInt8.ofNat v :: bytesLE n (v / 256)

/-- The number that some bytes spell, low byte first. -/
def natLE : List UInt8 → Nat
  | [] => 0
  | b :: bs => b.toNat + 256 * natLE bs

@[simp] theorem length_bytesLE (n v : Nat) : (bytesLE n v).length = n := by
  induction n generalizing v with
  | zero => rfl
  | succ n ih => rw [bytesLE, List.length_cons, ih]

/-- **Round trip.** What fits in `n` bytes is read back. -/
theorem natLE_bytesLE {n v : Nat} (h : v < 256 ^ n) : natLE (bytesLE n v) = v := by
  induction n generalizing v with
  | zero =>
    rw [Nat.pow_zero] at h
    show 0 = v
    omega
  | succ n ih =>
    rw [Nat.pow_succ] at h
    rw [bytesLE, natLE, ih (by omega), UInt8.toNat_ofNat']
    omega

/-! ### Reading -/

/-- The number in the `n` bytes at the offset. -/
def leAt (off n : Nat) (bs : List UInt8) : Option Nat :=
  if off + n ≤ bs.length then some (natLE ((bs.drop off).take n)) else none

variable {off n k : Nat} {bs cs dst src : List UInt8}

/-- A read inside the bytes is the number that stands there. -/
theorem leAt_of_le (h : off + n ≤ bs.length) :
    leAt off n bs = some (natLE ((bs.drop off).take n)) := if_pos h

/-- A read depends only on the bytes before the end of its field. -/
theorem leAt_congr (hk : off + n ≤ k) (hle : k ≤ bs.length) (h : bs.take k = cs.take k) :
    leAt off n bs = leAt off n cs := by
  have hlen := congrArg List.length h
  rw [List.length_take, List.length_take] at hlen
  have hfield : ∀ l : List UInt8, (l.drop off).take n = ((l.take k).drop off).take n := by
    intro l
    rw [List.drop_take, List.take_take, Nat.min_eq_left (by omega)]
  rw [leAt_of_le (by omega), leAt_of_le (by omega), hfield bs, hfield cs, h]

/-- What follows does not change a read that lies inside. -/
theorem leAt_append (h : off + n ≤ bs.length) : leAt off n (bs ++ cs) = leAt off n bs :=
  (leAt_congr h (Nat.le_refl _) (by simp)).symm

theorem leAt_take_append (hk : off + n ≤ k) (hle : k ≤ bs.length) :
    leAt off n (bs.take k ++ cs) = leAt off n bs := by
  have hlen : (bs.take k).length = k := List.length_take_of_le hle
  refine leAt_congr hk (by rw [List.length_append]; omega) ?_
  rw [List.take_append_of_le_length (by omega), List.take_take, Nat.min_self]

/-- A field that stands behind other bytes is read at its own offset there. -/
theorem leAt_append_right (h : bs.length = off) : leAt (off + k) n (bs ++ cs) = leAt k n cs := by
  subst h
  rw [leAt, leAt, List.length_append, List.drop_append, List.drop_eq_nil_of_le (by omega)]
  simp only [Nat.add_sub_cancel_left, List.nil_append, Nat.add_assoc, Nat.add_le_add_iff_left]

/-- A number that was just stored is read back. -/
theorem leAt_bytesLE {v : Nat} (h : v < 256 ^ n) : leAt 0 n (bytesLE n v ++ cs) = some v := by
  have hlen := length_bytesLE n v
  rw [leAt_append (by omega), leAt_of_le (by omega), List.drop_zero,
    List.take_of_length_le (by omega), natLE_bytesLE h]

/-! ### Writing -/

/-- `memcpy(dst + off, src, n)`. -/
def memcpy (dst : List UInt8) (off : Nat) (src : List UInt8) (n : Nat) : Option (List UInt8) :=
  if off + n ≤ dst.length ∧ n ≤ src.length then
    some (dst.take off ++ src.take n ++ dst.drop (off + n))
  else none

/-- `memset(dst, 0, n)`. -/
def memset (dst : List UInt8) (n : Nat) : Option (List UInt8) :=
  memcpy dst 0 (List.replicate n 0) n

theorem memcpy_of_le (hdst : off + n ≤ dst.length) (hsrc : n ≤ src.length) :
    memcpy dst off src n = some (dst.take off ++ src.take n ++ dst.drop (off + n)) :=
  if_pos ⟨hdst, hsrc⟩

/-- A copy that is defined stays within both regions. -/
theorem le_of_memcpy (h : memcpy dst off src n = some bs) :
    off + n ≤ dst.length ∧ n ≤ src.length := by
  rw [memcpy] at h
  split_ifs at h with hle
  exact hle

theorem length_of_memcpy (h : memcpy dst off src n = some bs) : bs.length = dst.length := by
  have hle := le_of_memcpy h
  rw [memcpy_of_le hle.1 hle.2] at h
  obtain rfl := Option.some.inj h
  simp only [List.length_append, List.length_take, List.length_drop]
  omega

/-- A copy over some bytes in the middle leaves what is before and behind them. -/
theorem memcpy_append {mid post : List UInt8} (hn : mid.length = n) (hsrc : n ≤ src.length) :
    memcpy (bs ++ mid ++ post) bs.length src n = some (bs ++ src.take n ++ post) := by
  rw [memcpy_of_le (by simp only [List.length_append]; omega) hsrc, List.append_assoc bs mid,
    List.take_left, ← List.append_assoc bs mid, List.drop_left' (by simp [hn])]

/-- What a region holds after some bytes were stored within it. -/
def store (dst : List UInt8) (off : Nat) (src : List UInt8) : List UInt8 :=
  dst.take off ++ src ++ dst.drop (off + src.length)

theorem memcpy_eq_store (h : off + src.length ≤ dst.length) :
    memcpy dst off src src.length = some (store dst off src) := by
  rw [memcpy_of_le h (Nat.le_refl _), List.take_length, store]

theorem length_store (h : off + src.length ≤ dst.length) :
    (store dst off src).length = dst.length := length_of_memcpy (memcpy_eq_store h)

/-- The bytes in front stay, and behind them is what was stored. -/
theorem take_store (h : off + src.length ≤ dst.length) :
    (store dst off src).take (off + src.length) = dst.take off ++ src := by
  have hlen : (dst.take off ++ src).length = off + src.length := by
    rw [List.length_append, List.length_take_of_le (by omega)]
  rw [store, ← hlen, List.take_left]

theorem drop_store (h : off + src.length ≤ dst.length) :
    (store dst off src).drop off = src ++ dst.drop (off + src.length) := by
  have hlen : (dst.take off).length = off := List.length_take_of_le (by omega)
  rw [store, List.append_assoc, List.drop_left' hlen]

end Bytes
