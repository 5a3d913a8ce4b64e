import QCLib.Foundations.Blocks
import QCLib.Foundations.Bytes
import QCLib.Foundations.StepRun

/-!
# Checksums of messages

`md5.cpp`. An `MD5` is fed with a message in chunks of any length; it keeps the bytes that do not
make up a block of 64 yet in `buffer`, and transforms `state` block by block. `finalize` pads the
message to whole blocks, with its length in bits in the last eight bytes, and writes `digest`.

How a message is cut into chunks does not matter, nor does what `buffer` and `digest` held before:
the result is the digest of the message as a whole (`update_chunks`). `Absorbed` says what the
object holds when it has been fed with some message, and `update` keeps it (`Absorbed.update`).

The lengths are `unsigned int`. In `update` the sum `i + blocksize` overflows for chunks that end
near 2^32, and then the loop does not end; such a chunk is excluded.

The 64 steps of `transform` are written out as in the source, in four rounds. What a step does to
the words is not looked into: all that the results need is that a block is transformed as a whole,
so `transform` is folded over the blocks of the padded message (`Foundations.Blocks`), and
`digestOf` is that fold.

The counter of bits is two words with a carry between them (`Absorbed.count_add`). It wraps at 2^64
bits, and the padding writes it as it is, so the digest of a longer message is still a function of
the message.
-/

open Blocks Bytes StepRun

namespace QCLib

/-- `state`: the four words of the digest. -/
structure Md5State where
  a : UInt32
  b : UInt32
  c : UInt32
  d : UInt32
  deriving DecidableEq, Repr

/-- `MD5`. `count0` and `count1` are the low and the high word of the number of bits, and `buffer`
holds the bytes that do not make a block yet. -/
structure Md5 where
  finalized : Bool
  buffer : List UInt8
  count0 : UInt32
  count1 : UInt32
  state : Md5State
  digest : List UInt8
  deriving DecidableEq, Repr

namespace Md5

/-! ### One block -/

def F (x y z : UInt32) : UInt32 := (x &&& y) ||| (~~~x &&& z)

def G (x y z : UInt32) : UInt32 := (x &&& z) ||| (y &&& ~~~z)

def H (x y z : UInt32) : UInt32 := x ^^^ y ^^^ z

def I (x y z : UInt32) : UInt32 := y ^^^ (x ||| ~~~z)

/-- `rotate_left`. -/
def rotateLeft (x n : UInt32) : UInt32 := (x <<< n) ||| (x >>> (32 - n))

/-- One step of a round, and the new value of its first variable. -/
def roundStep (f : UInt32 → UInt32 → UInt32 → UInt32) (a b c d x s ac : UInt32) : UInt32 :=
  rotateLeft (a + f b c d + x + ac) s + b

def FF := roundStep F

def GG := roundStep G

def HH := roundStep H

def II := roundStep I

/-- `decode`: bytes to words, the low byte first. -/
def decode (input : List UInt8) (len : ℕ) : List UInt32 :=
  (List.range ((len + 3) / 4)).map fun i ↦
    let j := 4 * i
    (input.getD j 0).toUInt32 ||| ((input.getD (j + 1) 0).toUInt32 <<< 8) |||
      ((input.getD (j + 2) 0).toUInt32 <<< 16) ||| ((input.getD (j + 3) 0).toUInt32 <<< 24)

/-- `encode`: words to bytes, the low byte first. -/
def encode (input : List UInt32) (len : ℕ) : List UInt8 :=
  (List.range ((len + 3) / 4)).flatMap fun i ↦
    let word := input.getD i 0
    [(word &&& 0xff).toUInt8, ((word >>> 8) &&& 0xff).toUInt8, ((word >>> 16) &&& 0xff).toUInt8,
      ((word >>> 24) &&& 0xff).toUInt8]

/-- `transform`: one block, in four rounds of sixteen steps. -/
def transform (s : Md5State) (block : List UInt8) : Md5State :=
  let x := fun i ↦ (decode block 64).getD i 0
  let a := s.a
  let b := s.b
  let c := s.c
  let d := s.d
  -- Round 1.
  let a := FF a b c d (x 0) 7 0xd76aa478
  let d := FF d a b c (x 1) 12 0xe8c7b756
  let c := FF c d a b (x 2) 17 0x242070db
  let b := FF b c d a (x 3) 22 0xc1bdceee
  let a := FF a b c d (x 4) 7 0xf57c0faf
  let d := FF d a b c (x 5) 12 0x4787c62a
  let c := FF c d a b (x 6) 17 0xa8304613
  let b := FF b c d a (x 7) 22 0xfd469501
  let a := FF a b c d (x 8) 7 0x698098d8
  let d := FF d a b c (x 9) 12 0x8b44f7af
  let c := FF c d a b (x 10) 17 0xffff5bb1
  let b := FF b c d a (x 11) 22 0x895cd7be
  let a := FF a b c d (x 12) 7 0x6b901122
  let d := FF d a b c (x 13) 12 0xfd987193
  let c := FF c d a b (x 14) 17 0xa679438e
  let b := FF b c d a (x 15) 22 0x49b40821
  -- Round 2.
  let a := GG a b c d (x 1) 5 0xf61e2562
  let d := GG d a b c (x 6) 9 0xc040b340
  let c := GG c d a b (x 11) 14 0x265e5a51
  let b := GG b c d a (x 0) 20 0xe9b6c7aa
  let a := GG a b c d (x 5) 5 0xd62f105d
  let d := GG d a b c (x 10) 9 0x2441453
  let c := GG c d a b (x 15) 14 0xd8a1e681
  let b := GG b c d a (x 4) 20 0xe7d3fbc8
  let a := GG a b c d (x 9) 5 0x21e1cde6
  let d := GG d a b c (x 14) 9 0xc33707d6
  let c := GG c d a b (x 3) 14 0xf4d50d87
  let b := GG b c d a (x 8) 20 0x455a14ed
  let a := GG a b c d (x 13) 5 0xa9e3e905
  let d := GG d a b c (x 2) 9 0xfcefa3f8
  let c := GG c d a b (x 7) 14 0x676f02d9
  let b := GG b c d a (x 12) 20 0x8d2a4c8a
  -- Round 3.
  let a := HH a b c d (x 5) 4 0xfffa3942
  let d := HH d a b c (x 8) 11 0x8771f681
  let c := HH c d a b (x 11) 16 0x6d9d6122
  let b := HH b c d a (x 14) 23 0xfde5380c
  let a := HH a b c d (x 1) 4 0xa4beea44
  let d := HH d a b c (x 4) 11 0x4bdecfa9
  let c := HH c d a b (x 7) 16 0xf6bb4b60
  let b := HH b c d a (x 10) 23 0xbebfbc70
  let a := HH a b c d (x 13) 4 0x289b7ec6
  let d := HH d a b c (x 0) 11 0xeaa127fa
  let c := HH c d a b (x 3) 16 0xd4ef3085
  let b := HH b c d a (x 6) 23 0x4881d05
  let a := HH a b c d (x 9) 4 0xd9d4d039
  let d := HH d a b c (x 12) 11 0xe6db99e5
  let c := HH c d a b (x 15) 16 0x1fa27cf8
  let b := HH b c d a (x 2) 23 0xc4ac5665
  -- Round 4.
  let a := II a b c d (x 0) 6 0xf4292244
  let d := II d a b c (x 7) 10 0x432aff97
  let c := II c d a b (x 14) 15 0xab9423a7
  let b := II b c d a (x 5) 21 0xfc93a039
  let a := II a b c d (x 12) 6 0x655b59c3
  let d := II d a b c (x 3) 10 0x8f0ccc92
  let c := II c d a b (x 10) 15 0xffeff47d
  let b := II b c d a (x 1) 21 0x85845dd1
  let a := II a b c d (x 8) 6 0x6fa87e4f
  let d := II d a b c (x 15) 10 0xfe2ce6e0
  let c := II c d a b (x 6) 15 0xa3014314
  let b := II b c d a (x 13) 21 0x4e0811a1
  let a := II a b c d (x 4) 6 0xf7537e82
  let d := II d a b c (x 11) 10 0xbd3af235
  let c := II c d a b (x 2) 15 0x2ad7d2bb
  let b := II b c d a (x 9) 21 0xeb86d391
  { a := s.a + a, b := s.b + b, c := s.c + c, d := s.d + d }

/-! ### Messages -/

/-- The state that `init` sets. -/
def initState : Md5State where
  a := 0x67452301
  b := 0xefcdab89
  c := 0x98badcfe
  d := 0x10325476

/-- `MD5::MD5`, with what the arrays of the object hold. -/
def new (buffer digest : List UInt8) : Md5 where
  finalized := false
  buffer
  count0 := 0
  count1 := 0
  state := initState
  digest

/-- The loop of `update` over the whole blocks of the input from `i` on. -/
def updateLoop (input : List UInt8) (length : UInt32) :
    ℕ → Md5State → UInt32 → Option (Md5State × UInt32)
  | 0, _, _ => none
  | fuel + 1, state, i =>
    if i + 64 ≤ length then
      if i.toNat + 64 ≤ input.length then
        updateLoop input length fuel (transform state ((input.drop i.toNat).take 64)) (i + 64)
      else none
    else some (state, i)

/-- `update`. The bytes that have waited are completed to a block if that is possible, then whole
blocks are hashed from the input, and the rest waits. -/
def update (m : Md5) (input : List UInt8) (length : UInt32) : Option Md5 :=
  let index := m.count0 / 8 % 64
  let count0 := m.count0 + length <<< 3
  let count1 := if count0 < length <<< 3 then m.count1 + 1 else m.count1
  let count1 := count1 + length >>> 29
  let firstpart := 64 - index
  if firstpart ≤ length then do
    let buffer ← memcpy m.buffer index.toNat input firstpart.toNat
    let (state, i) ← updateLoop input length (length.toNat / 64 + 1) (transform m.state buffer)
      firstpart
    let buffer ← memcpy buffer 0 (input.drop i.toNat) (length - i).toNat
    return { m with buffer, count0, count1, state }
  else do
    let buffer ← memcpy m.buffer index.toNat input length.toNat
    return { m with buffer, count0, count1 }

/-- `padding`: a one bit, and zeros. -/
def padding : List UInt8 := 0x80 :: List.replicate 63 0

/-- The words of the state. -/
def words (s : Md5State) : List UInt32 := [s.a, s.b, s.c, s.d]

/-- `finalize`, which pads the message, appends its length and writes the digest. A second call does
nothing. -/
def finalize (m : Md5) : Option Md5 :=
  if m.finalized then some m
  else do
    let bits := encode [m.count0, m.count1] 8
    let index := m.count0 / 8 % 64
    let padLen := if index < 56 then 56 - index else 120 - index
    let m ← m.update padding padLen
    let m ← m.update bits 8
    let buffer ← memset m.buffer 64
    return { m with
      finalized := true, buffer, count0 := 0, count1 := 0, digest := encode (words m.state) 16 }

/-- `"%02x"` of a byte. -/
def hexByte (b : UInt8) : List Char :=
  [Nat.digitChar (b.toNat / 16), Nat.digitChar (b.toNat % 16)]

/-- The digits of some bytes. -/
def hexOf (bytes : List UInt8) : String := String.ofList (bytes.flatMap hexByte)

/-- `hexdigest`, which is empty before `finalize`. -/
def hexdigest (m : Md5) : String := if m.finalized then hexOf m.digest else ""

/-- `md5`, another name for `hexdigest`. -/
def md5 (m : Md5) : String := m.hexdigest

/-- `MD5::MD5(text)`: the text is absorbed and the context finalized. The constructor sets neither
array. -/
def ofText (buffer digest text : List UInt8) : Option Md5 := do
  let m ← (new buffer digest).update text (UInt32.ofNat text.length)
  m.finalize

/-! ### What has been fed -/

/-- The object has been fed with the message. -/
structure Absorbed (m : Md5) (l : List UInt8) : Prop where
  finalized : m.finalized = false
  length_buffer : m.buffer.length = 64
  count : m.count0.toNat + 2 ^ 32 * m.count1.toNat = 8 * l.length % 2 ^ 64
  state : m.state = foldBlocks transform 64 initState l
  buffer : m.buffer.take (l.length % 64) = remainder 64 l

variable {m : Md5} {l input : List UInt8} {length : UInt32}

theorem absorbed_new {buffer digest : List UInt8} (h : buffer.length = 64) :
    Absorbed (new buffer digest) [] where
  finalized := rfl
  length_buffer := h
  count := rfl
  state := rfl
  buffer := rfl

/-- `index` is the number of bytes that wait in `buffer`. -/
theorem Absorbed.index (h : Absorbed m l) : (m.count0 / 8 % 64).toNat = l.length % 64 := by
  have hcount := h.count
  have hlt := m.count0.toNat_lt
  rw [UInt32.toNat_mod, UInt32.toNat_div]
  show m.count0.toNat / 8 % 64 = _
  omega

/-- The two words of the counter count the bits modulo 2^64, with the carry from the low word to the
high one. -/
theorem Absorbed.count_add (h : Absorbed m l) (length : UInt32) :
    (m.count0 + length <<< 3).toNat + 2 ^ 32 *
      ((if m.count0 + length <<< 3 < length <<< 3 then m.count1 + 1 else m.count1) +
        length >>> 29).toNat = 8 * (l.length + length.toNat) % 2 ^ 64 := by
  have hcount := h.count
  have h0 := m.count0.toNat_lt
  have h1 := m.count1.toNat_lt
  have hl := length.toNat_lt
  have hshl : (length <<< 3).toNat = 8 * length.toNat % 2 ^ 32 := by
    rw [UInt32.toNat_shiftLeft, Nat.shiftLeft_eq, Nat.mul_comm]
    rfl
  have hshr : (length >>> 29).toNat = length.toNat / 2 ^ 29 := by
    rw [UInt32.toNat_shiftRight, Nat.shiftRight_eq_div_pow]
    rfl
  split_ifs with hcarry
  · rw [UInt32.lt_iff_toNat_lt, UInt32.toNat_add, hshl] at hcarry
    rw [UInt32.toNat_add, UInt32.toNat_add, UInt32.toNat_add, hshl, hshr,
      show (1 : UInt32).toNat = 1 from rfl]
    omega
  · rw [UInt32.lt_iff_toNat_lt, UInt32.toNat_add, hshl] at hcarry
    rw [UInt32.toNat_add, UInt32.toNat_add, hshl, hshr]
    omega

/-- **The loop** transforms the whole blocks of what is left of the input, and leaves the rest. -/
theorem updateLoop_spec (hlen : length.toNat ≤ input.length) (hshort : length.toNat + 64 < 2 ^ 32)
    (fuel : ℕ) (state : Md5State) (i : UInt32) (hi : i.toNat ≤ length.toNat)
    (hfuel : length.toNat < i.toNat + 64 * fuel) :
    ∃ i', updateLoop input length fuel state i =
        some (foldBlocks transform 64 state ((input.take length.toNat).drop i.toNat), i') ∧
      i'.toNat ≤ length.toNat ∧ (input.take length.toNat).drop i'.toNat =
        remainder 64 ((input.take length.toNat).drop i.toNat) := by
  have hdata : (input.take length.toNat).length = length.toNat := List.length_take_of_le hlen
  induction fuel generalizing state i with
  | zero => omega
  | succ fuel ih =>
    have hsum : (i + 64).toNat = i.toNat + 64 := by
      rw [UInt32.toNat_add, show (64 : UInt32).toNat = 64 from rfl]
      omega
    have hle : i + 64 ≤ length ↔ i.toNat + 64 ≤ length.toNat := by
      rw [UInt32.le_iff_toNat_le, hsum]
    rw [updateLoop]
    by_cases hblock : i.toNat + 64 ≤ length.toNat
    · have hrest : 64 ≤ ((input.take length.toNat).drop i.toNat).length := by
        rw [List.length_drop, hdata]
        omega
      have htake : (input.drop i.toNat).take 64 =
          ((input.take length.toNat).drop i.toNat).take 64 := by
        rw [List.drop_take, List.take_take, Nat.min_eq_left (by omega)]
      obtain ⟨i', hloop, hi', hleft⟩ := ih (transform state ((input.drop i.toNat).take 64)) (i + 64)
        (by rw [hsum]; exact hblock) (by rw [hsum]; omega)
      rw [hsum, ← List.drop_drop] at hloop hleft
      refine ⟨i', ?_, hi', ?_⟩
      · rw [if_pos (hle.2 hblock), if_pos (by omega), hloop, htake,
          foldBlocks_of_le (by decide : 0 < 64) hrest]
      · rw [hleft, (blocksOf_of_le (by decide : 0 < 64) hrest).2]
    · have hrest : ((input.take length.toNat).drop i.toNat).length < 64 := by
        rw [List.length_drop, hdata]
        omega
      refine ⟨i, ?_, hi, (blocksOf_of_lt hrest).2.symm⟩
      rw [if_neg (mt hle.1 hblock), foldBlocks_of_lt hrest]

/-- What is to be transformed is the whole blocks of what waits and what comes. -/
theorem Absorbed.of_rest {m' : Md5} {data : List UInt8} (h : Absorbed m l)
    (hfinalized : m'.finalized = false) (hbuffer : m'.buffer.length = 64)
    (hcount : m'.count0.toNat + 2 ^ 32 * m'.count1.toNat = 8 * (l.length + data.length) % 2 ^ 64)
    (hstate : m'.state = foldBlocks transform 64 m.state (remainder 64 l ++ data))
    (hrest : m'.buffer.take (remainder 64 (remainder 64 l ++ data)).length =
      remainder 64 (remainder 64 l ++ data)) : Absorbed m' (l ++ data) where
  finalized := hfinalized
  length_buffer := hbuffer
  count := by rw [List.length_append, hcount]
  state := by rw [hstate, h.state, ← foldBlocks_append (by decide : 0 < 64)]
  buffer := by
    rw [← length_remainder 64, (blocksOf_append (by decide : 0 < 64) l data).2, hrest]

theorem Absorbed.firstpart (h : Absorbed m l) :
    (64 - m.count0 / 8 % 64).toNat = 64 - l.length % 64 := by
  have hlt : l.length % 64 < 64 := Nat.mod_lt _ (by decide)
  rw [UInt32.toNat_sub, h.index, show (64 : UInt32).toNat = 64 from rfl]
  omega

/-- Input that does not make up a block waits with the rest. -/
theorem Absorbed.update_of_lt (h : Absorbed m l) (hlen : length.toNat ≤ input.length)
    (hpart : length.toNat < 64 - l.length % 64) :
    ∃ m', m.update input length = some m' ∧ Absorbed m' (l ++ input.take length.toNat) := by
  have hdata : (input.take length.toNat).length = length.toNat := List.length_take_of_le hlen
  have hrem := length_remainder 64 l
  have hcopy : memcpy m.buffer (l.length % 64) input length.toNat =
      some (remainder 64 l ++ input.take length.toNat ++
        m.buffer.drop (l.length % 64 + length.toNat)) := by
    rw [memcpy_of_le (by rw [h.length_buffer]; omega) hlen, h.buffer]
  have hrest : (remainder 64 l ++ input.take length.toNat).length < 64 := by
    rw [List.length_append, hrem, hdata]
    omega
  have hle : ¬ 64 - m.count0 / 8 % 64 ≤ length := by
    rw [UInt32.le_iff_toNat_le, h.firstpart]
    omega
  unfold Md5.update
  dsimp only
  rw [if_neg hle, h.index, hcopy]
  refine ⟨_, rfl, h.of_rest h.finalized ?_ ?_ ?_ ?_⟩
  · show (remainder 64 l ++ input.take length.toNat ++ m.buffer.drop _).length = 64
    rw [List.length_append, List.length_append, hrem, hdata, List.length_drop, h.length_buffer]
    omega
  · rw [hdata]
    exact h.count_add length
  · exact (foldBlocks_of_lt hrest).symm
  · rw [(blocksOf_of_lt hrest).2]
    exact List.take_left

/-- When the input completes the block that waits, the first block to be hashed is what has waited
and the beginning of the input. -/
theorem Absorbed.update_of_le (h : Absorbed m l) (hlen : length.toNat ≤ input.length)
    (hshort : length.toNat + 64 < 2 ^ 32) (hpart : 64 - l.length % 64 ≤ length.toNat) :
    ∃ m', m.update input length = some m' ∧ Absorbed m' (l ++ input.take length.toNat) := by
  have hdata : (input.take length.toNat).length = length.toNat := List.length_take_of_le hlen
  have hrem := length_remainder 64 l
  have hlt : l.length % 64 < 64 := Nat.mod_lt _ (by decide)
  have hlong : (remainder 64 l).length ≤ 64 := by omega
  have htake : (remainder 64 l ++ input.take length.toNat).take 64 =
      remainder 64 l ++ input.take (64 - l.length % 64) := by
    rw [List.take_append, List.take_of_length_le hlong, hrem, List.take_take,
      Nat.min_eq_left hpart]
  have hdrop : (remainder 64 l ++ input.take length.toNat).drop 64 =
      (input.take length.toNat).drop (64 - l.length % 64) := by
    rw [List.drop_append, List.drop_eq_nil_of_le hlong, List.nil_append, hrem]
  have hcopy : memcpy m.buffer (l.length % 64) input (64 - l.length % 64) =
      some ((remainder 64 l ++ input.take length.toNat).take 64) := by
    rw [memcpy_of_le (by rw [h.length_buffer]; omega) (by omega), h.buffer, htake,
      List.drop_eq_nil_of_le (by rw [h.length_buffer]; omega), List.append_nil]
  have hrest : 64 ≤ (remainder 64 l ++ input.take length.toNat).length := by
    rw [List.length_append, hrem, hdata]
    omega
  obtain ⟨i', hloop, hi', hleft⟩ := updateLoop_spec hlen hshort (length.toNat / 64 + 1)
    (transform m.state ((remainder 64 l ++ input.take length.toNat).take 64))
    (64 - m.count0 / 8 % 64) (by rw [h.firstpart]; exact hpart) (by omega)
  rw [h.firstpart, ← hdrop, ← foldBlocks_of_le (by decide) hrest] at hloop
  rw [h.firstpart, ← hdrop, ← (blocksOf_of_le (by decide) hrest).2] at hleft
  -- What is left of the input is copied to the front of the buffer.
  have hsub : (length - i').toNat = length.toNat - i'.toNat :=
    UInt32.toNat_sub_of_le _ _ (UInt32.le_iff_toNat_le.2 hi')
  have hlast : (input.drop i'.toNat).take (length - i').toNat =
      remainder 64 (remainder 64 l ++ input.take length.toNat) := by
    rw [← hleft, hsub, List.drop_take]
  have hshorter : (length - i').toNat < 64 := by
    have hlen' := congrArg List.length hleft
    rw [length_remainder, List.length_drop, hdata] at hlen'
    rw [hsub, hlen']
    exact Nat.mod_lt _ (by decide)
  have hblock : ((remainder 64 l ++ input.take length.toNat).take 64).length = 64 :=
    List.length_take_of_le hrest
  have hcopy' : memcpy ((remainder 64 l ++ input.take length.toNat).take 64) 0
      (input.drop i'.toNat) (length - i').toNat =
        some (remainder 64 (remainder 64 l ++ input.take length.toNat) ++
          ((remainder 64 l ++ input.take length.toNat).take 64).drop (length - i').toNat) := by
    rw [memcpy_of_le (by rw [hblock]; omega) (by rw [List.length_drop, hsub]; omega), hlast,
      List.take_zero, List.nil_append, Nat.zero_add]
  have hle : 64 - m.count0 / 8 % 64 ≤ length := by
    rw [UInt32.le_iff_toNat_le, h.firstpart]
    exact hpart
  unfold Md5.update
  dsimp only
  rw [if_pos hle, h.index, h.firstpart, hcopy, Option.bind_eq_bind, Option.bind_some, hloop,
    Option.bind_eq_bind, Option.bind_some]
  dsimp only
  rw [hcopy']
  refine ⟨_, rfl, h.of_rest h.finalized ?_ ?_ rfl List.take_left⟩
  · exact (length_of_memcpy hcopy').trans hblock
  · rw [hdata]
    exact h.count_add length

/-- **`update`** feeds the object with the input, up to the length that is given. -/
theorem Absorbed.update (h : Absorbed m l) (hlen : length.toNat ≤ input.length)
    (hshort : length.toNat + 64 < 2 ^ 32) :
    ∃ m', m.update input length = some m' ∧ Absorbed m' (l ++ input.take length.toNat) := by
  rcases Nat.lt_or_ge length.toNat (64 - l.length % 64) with hpart | hpart
  · exact h.update_of_lt hlen hpart
  · exact h.update_of_le hlen hshort hpart

/-! ### The digest of a message -/

/-- The message, padded to whole blocks: a byte 0x80, zeros, and the number of bits. -/
def padded (l : List UInt8) : List UInt8 :=
  l ++ 0x80 :: List.replicate ((119 - l.length % 64) % 64) 0 ++ bytesLE 8 (8 * l.length)

/-- The digest of a message. -/
def digestOf (l : List UInt8) : List UInt8 :=
  encode (words (foldBlocks transform 64 initState (padded l))) 16

/-- The low byte of a word is the remainder modulo 256. -/
theorem toUInt8_and {w : UInt32} {n : ℕ} (h : n % 256 = w.toNat % 256) :
    (w &&& 0xff).toUInt8 = UInt8.ofNat n := by
  refine UInt8.toNat_inj.1 ?_
  rw [UInt32.toNat_toUInt8, UInt32.toNat_and, UInt8.toNat_ofNat',
    show (0xff : UInt32).toNat = 2 ^ 8 - 1 from rfl, Nat.and_two_pow_sub_one_eq_mod]
  omega

theorem toNat_shiftRight_ofNat (w : UInt32) {k : ℕ} (hk : k < 32) :
    (w >>> UInt32.ofNat k).toNat = w.toNat / 2 ^ k := by
  rw [UInt32.toNat_shiftRight, UInt32.toNat_ofNat', Nat.mod_eq_of_lt (show k < 2 ^ 32 by omega),
    Nat.mod_eq_of_lt hk, Nat.shiftRight_eq_div_pow]

/-- The number of bits is written as `bytesLE` writes it. -/
theorem encode_count {count0 count1 : UInt32} {n : ℕ}
    (h : count0.toNat + 2 ^ 32 * count1.toNat = n % 2 ^ 64) :
    encode [count0, count1] 8 = bytesLE 8 n := by
  have h0 := count0.toNat_lt
  have h1 := count1.toNat_lt
  have hbyte : ∀ (w : UInt32) (k j : ℕ), k < 32 → j % 256 = w.toNat / 2 ^ k % 256 →
      ((w >>> UInt32.ofNat k) &&& 0xff).toUInt8 = UInt8.ofNat j := fun w k j hk hj ↦
    toUInt8_and (by rw [toNat_shiftRight_ofNat w hk, hj])
  show [(count0 &&& 0xff).toUInt8, ((count0 >>> UInt32.ofNat 8) &&& 0xff).toUInt8,
    ((count0 >>> UInt32.ofNat 16) &&& 0xff).toUInt8,
    ((count0 >>> UInt32.ofNat 24) &&& 0xff).toUInt8,
    (count1 &&& 0xff).toUInt8, ((count1 >>> UInt32.ofNat 8) &&& 0xff).toUInt8,
    ((count1 >>> UInt32.ofNat 16) &&& 0xff).toUInt8,
    ((count1 >>> UInt32.ofNat 24) &&& 0xff).toUInt8] = _
  rw [toUInt8_and (w := count0) (n := n) (by omega),
    hbyte count0 8 (n / 256) (by decide) (by omega),
    hbyte count0 16 (n / 256 / 256) (by decide) (by omega),
    hbyte count0 24 (n / 256 / 256 / 256) (by decide) (by omega),
    toUInt8_and (w := count1) (n := n / 256 / 256 / 256 / 256) (by omega),
    hbyte count1 8 (n / 256 / 256 / 256 / 256 / 256) (by decide) (by omega),
    hbyte count1 16 (n / 256 / 256 / 256 / 256 / 256 / 256) (by decide) (by omega),
    hbyte count1 24 (n / 256 / 256 / 256 / 256 / 256 / 256 / 256) (by decide) (by omega)]
  rfl

/-- **`finalize`** writes the digest of the message, once. -/
theorem Absorbed.finalize (h : Absorbed m l) : ∃ m', m.finalize = some m' ∧
    m'.finalized = true ∧ m'.digest = digestOf l := by
  have hindex := h.index
  have hlt : l.length % 64 < 64 := Nat.mod_lt _ (by decide)
  -- The length of the padding, and what is fed.
  let padLen : UInt32 :=
    if m.count0 / 8 % 64 < 56 then 56 - m.count0 / 8 % 64 else 120 - m.count0 / 8 % 64
  have hpad : padLen.toNat = (119 - l.length % 64) % 64 + 1 := by
    have hiff : m.count0 / 8 % 64 < 56 ↔ l.length % 64 < 56 := by
      rw [UInt32.lt_iff_toNat_lt, hindex]
      rfl
    dsimp only [padLen]
    split_ifs with hshort
    · rw [UInt32.toNat_sub, hindex, show (56 : UInt32).toNat = 56 from rfl]
      have := hiff.1 hshort
      omega
    · rw [UInt32.toNat_sub, hindex, show (120 : UInt32).toNat = 120 from rfl]
      have := mt hiff.2 hshort
      omega
  have htake : padding.take padLen.toNat =
      0x80 :: List.replicate ((119 - l.length % 64) % 64) 0 := by
    rw [hpad, padding, List.take_succ_cons, List.take_replicate, Nat.min_eq_left (by omega)]
  have hpadding : padLen.toNat ≤ padding.length := by
    rw [hpad, padding, List.length_cons, List.length_replicate]
    omega
  obtain ⟨m₁, hm₁, h₁⟩ := h.update hpadding (by rw [hpad]; omega)
  have hbits : encode [m.count0, m.count1] 8 = bytesLE 8 (8 * l.length) := encode_count h.count
  have hcount : (8 : UInt32).toNat ≤ (bytesLE 8 (8 * l.length)).length := by
    rw [length_bytesLE]
    decide
  obtain ⟨m₂, hm₂, h₂⟩ := h₁.update hcount (by decide)
  rw [htake, List.take_of_length_le (by rw [length_bytesLE]; decide)] at h₂
  have hset : memset m₂.buffer 64 = some (List.replicate 64 0) := by
    rw [memset, memcpy_of_le (by rw [h₂.length_buffer]) (by rw [List.length_replicate]),
      List.drop_eq_nil_of_le (by rw [h₂.length_buffer])]
    rfl
  refine ⟨{ m₂ with
    finalized := true, buffer := List.replicate 64 0, count0 := 0, count1 := 0
    digest := encode (words m₂.state) 16 }, ?_, rfl, ?_⟩
  · rw [Md5.finalize, h.finalized, if_neg Bool.false_ne_true]
    show (m.update padding padLen).bind _ = _
    rw [hm₁, Option.bind_some, hbits, hm₂]
    show (memset m₂.buffer 64).bind _ = _
    rw [hset]
    rfl
  · show encode (words m₂.state) 16 = _
    rw [h₂.state, digestOf, padded]

/-- A chunk for which the loop of `update` ends. -/
def Short (chunk : List UInt8) : Prop := chunk.length + 64 < 2 ^ 32

instance (chunk : List UInt8) : Decidable (Short chunk) := inferInstanceAs (Decidable (_ < _))

/-- `update` with the whole of a chunk. -/
def updateAll (m : Md5) (chunk : List UInt8) : Option Md5 :=
  m.update chunk (UInt32.ofNat chunk.length)

theorem Absorbed.updateAll (h : Absorbed m l) (hshort : Short input) :
    ∃ m', m.updateAll input = some m' ∧ Absorbed m' (l ++ input) := by
  rw [Short] at hshort
  have hlen : (UInt32.ofNat input.length).toNat = input.length := by
    rw [UInt32.toNat_ofNat', Nat.mod_eq_of_lt (by omega)]
  obtain ⟨m', hm', h'⟩ := h.update hlen.le (by rw [hlen]; exact hshort)
  rw [hlen, List.take_length] at h'
  exact ⟨m', hm', h'⟩

/-- The constructor that takes the whole message at once. -/
theorem ofText_md5 {buffer digest text : List UInt8} (hbuffer : buffer.length = 64)
    (hshort : Short text) : (ofText buffer digest text).map md5 = some (hexOf (digestOf text)) := by
  have hnew : Absorbed (new buffer digest) [] := absorbed_new hbuffer
  obtain ⟨m, hm, h⟩ := hnew.updateAll hshort
  obtain ⟨m', hm', hfinalized, hdigest⟩ := h.finalize
  rw [ofText, show (new buffer digest).update text _ = some m from hm]
  show m.finalize.map md5 = _
  rw [hm', Option.map_some, md5, hexdigest, hfinalized, hdigest]
  rfl

/-- **The digest of a message** does not depend on how it is cut into chunks, nor on what the object
held when it was made; a second `finalize` leaves it as it is. -/
theorem update_chunks {buffer digest : List UInt8} (hbuffer : buffer.length = 64)
    {chunks : List (List UInt8)} (hshort : ∀ chunk ∈ chunks, Short chunk) :
    ∃ m m', run Md5.updateAll (new buffer digest) chunks = some m ∧ m.finalize = some m' ∧
      m'.digest = digestOf chunks.flatten ∧ m'.hexdigest = hexOf (digestOf chunks.flatten) ∧
        m'.finalize = some m' := by
  have hok : Guarded Md5.updateAll (fun _ ↦ Short) (new buffer digest) chunks :=
    guarded_of_forall hshort
  obtain ⟨m, hrun, h⟩ := exists_run_refines (R := Absorbed) (f := (· ++ ·))
    (fun m l chunk h hok ↦ h.updateAll hok) (absorbed_new hbuffer) hok
  have hflatten : ∀ (chunks : List (List UInt8)) (l : List UInt8),
      chunks.foldl (· ++ ·) l = l ++ chunks.flatten := by
    intro chunks
    induction chunks with
    | nil => exact fun l ↦ (List.append_nil l).symm
    | cons chunk chunks ih => exact fun l ↦ (ih _).trans (List.append_assoc ..)
  rw [hflatten, List.nil_append] at h
  obtain ⟨m', hm', hfinalized, hdigest⟩ := h.finalize
  refine ⟨m, m', hrun, hm', hdigest, ?_, ?_⟩
  · rw [hexdigest, hfinalized, hdigest]
    rfl
  · rw [Md5.finalize, hfinalized]
    rfl

/-- The digest of `abc`, absorbed in two chunks. -/
theorem update_chunks_abc : ∃ m m',
    run Md5.updateAll (new (List.replicate 64 7) []) [[0x61], [0x62, 0x63]] = some m ∧
      m.finalize = some m' ∧ m'.digest = digestOf [0x61, 0x62, 0x63] ∧
        m'.hexdigest = hexOf (digestOf [0x61, 0x62, 0x63]) ∧ m'.finalize = some m' := by
  have hshort : ∀ chunk ∈ ([[0x61], [0x62, 0x63]] : List (List UInt8)), Short chunk := by decide
  exact update_chunks List.length_replicate hshort

example : hexOf (digestOf [0x61, 0x62, 0x63]) = "900150983cd24fb0d6963f7d28e17f72" := by
  decide +kernel

end Md5

end QCLib
