import QCLib.Foundations.Bytes
import QCLib.Foundations.Framing
import QCLib.Net.Command

/-!
# Packets

`Message` of `base_define.h` and the buffer functions of `function_for_muduo.h`. A packet is eight
bytes of header, two of command, the data, and padding up to a multiple of eight; the header starts
with the length of the data.

A `Message*` is the list of the bytes from there to the end of its allocation, and muduo's `Buffer`
a FIFO of bytes. The length is a `uint32_t` in the header and an `int32_t` where it is read off the
wire; the comparison with the size of the buffer is made in `size_t`, which sign-extends it. Signed
arithmetic is two's complement. As everywhere, `none` is undefined behaviour or a failed allocation.

`PACKET_SIZE` rounds up in whichever type its argument has. `packetSize` is the machine version at
32 or 64 bits, `packetLen` the one in numbers, and `toNat_packetSize_of_le` the bridge, up to the
lengths where a sum overflows.

A *boundary* of a buffer is a place that the loop comes to when it cuts packets off, and whether the
loop ends, and whether every packet is well formed, are questions about the boundaries. Some lengths
are no lengths: those just below zero make a packet empty or shorter than its own header, and they
are the ones that the comparison in `size_t` lets through.
-/

open Bytes Framing

namespace QCLib

/-- `Buffer`, as the queue of its readable bytes. -/
abbrev Buffer := List UInt8

/-- What a `Message*` points to: all bytes of its block, the header among them. -/
abbrev Message := List UInt8

/-! ### Sizes -/

/-- `CMDHEADER_SIZE`. -/
def cmdHeaderSize : Nat := 8

/-- `CMDTYPE_SIZE`. -/
def cmdTypeSize : Nat := 2

/-- `ROUNDNUM(value, num)`, for a power of two: the next multiple of `num`. -/
def roundNum {w : Nat} (value num : BitVec w) : BitVec w := (value + (num - 1)) &&& ~~~(num - 1)

/-- `PACKET_SIZE(DATA_SIZE)`, in the type of its argument. -/
def packetSize {w : Nat} (dataSize : BitVec w) : BitVec w :=
  roundNum (BitVec.ofNat w (cmdHeaderSize + cmdTypeSize) + dataSize) 8

/-- The conversion of an `int32_t` to `size_t`. -/
def sizeT (n : BitVec 32) : BitVec 64 := BitVec.ofInt 64 n.toInt

/-! ### Fields -/

namespace Message

/-- `m_header.m_data_len`. -/
def dataLen (m : Message) : Option (BitVec 32) := (leAt 0 4 m).map (BitVec.ofNat 32)

/-- `m_cmd.m_whole_cmd`. -/
def wholeCmd (m : Message) : Option WholeCmd := (leAt 8 2 m).map UInt16.ofNat

/-- `m_data`. -/
def data (m : Message) : List UInt8 := m.drop (cmdHeaderSize + cmdTypeSize)

end Message

/-! ### Buffers -/

/-- `NewMessage(datasize)`, where the size is not negative as an `int`. The block is filled with
zeros. -/
def newMessage (datasize : BitVec 32) : Option Message :=
  let bufsize := (packetSize datasize).toInt
  if 0 ≤ bufsize then some (List.replicate bufsize.toNat 0) else none

/-- `msg2Buffer`: as many bytes as the header says are appended, and have to be there. -/
def msg2Buffer (msg : Message) (buf : Buffer) : Option Buffer := do
  let dataLen ← msg.dataLen
  let size := (sizeT (packetSize dataLen)).toNat
  if size ≤ msg.length then some (buf ++ msg.take size) else none

/-- `enouthData`: a whole packet has arrived. -/
def enouthData (buf : Buffer) : Bool :=
  let bufsize := buf.length
  if bufsize > 4 then
    let datasize := BitVec.ofNat 32 (natLE (buf.take 4))
    bufsize ≥ (sizeT (packetSize datasize)).toNat
  else false

/-- `newMsgFormBuffer`: cut a packet off the buffer. -/
def newMsgFormBuffer (buf : Buffer) : Option (Message × Buffer) := do
  let datasize ← (leAt 0 4 buf).map (BitVec.ofNat 32)
  let ptmp ← newMessage datasize
  let packetsize := (sizeT (packetSize datasize)).toNat
  let ptmp ← memcpy ptmp 0 buf packetsize
  return (ptmp, buf.drop packetsize)

/-! ### Arithmetic -/

/-- Clearing the low three bits. -/
private theorem toNat_and_not_seven {w : Nat} (x : BitVec w) :
    (x &&& ~~~(BitVec.ofNat w 7)).toNat = x.toNat / 8 * 8 := by
  have hshift : x &&& ~~~(BitVec.ofNat w 7) = (x >>> 3) <<< 3 := by
    refine BitVec.eq_of_getLsbD_eq fun i hi ↦ ?_
    have hseven : Nat.testBit 7 i = decide (i < 3) := Nat.testBit_two_pow_sub_one 3 i
    rw [BitVec.getLsbD_and, BitVec.getLsbD_not, BitVec.getLsbD_ofNat, hseven,
      BitVec.getLsbD_shiftLeft, BitVec.getLsbD_ushiftRight]
    rcases Nat.lt_or_ge i 3 with h | h
    · simp [h, hi]
    · simp [hi, Nat.not_lt.2 h, Nat.add_sub_cancel' h]
  have hlt := x.isLt
  have hle : x.toNat / 8 * 8 ≤ x.toNat := Nat.div_mul_le_self _ _
  rw [hshift, BitVec.toNat_shiftLeft, BitVec.toNat_ushiftRight, Nat.shiftLeft_eq,
    Nat.shiftRight_eq_div_pow]
  exact Nat.mod_eq_of_lt (by omega)

/-- Header, command and data, rounded up to a multiple of eight: in `int32_t` or `uint32_t`, and in
`size_t`. -/
theorem toNat_packetSize {w : Nat} (hw : w = 32 ∨ w = 64) (n : BitVec w) :
    (packetSize n).toNat = (n.toNat + 17) % 2 ^ w / 8 * 8 := by
  have hseven : (8 : BitVec w) - 1 = BitVec.ofNat w 7 := by
    rcases hw with rfl | rfl <;> rfl
  rw [packetSize, roundNum, hseven, toNat_and_not_seven, BitVec.toNat_add, BitVec.toNat_add,
    BitVec.toNat_ofNat, BitVec.toNat_ofNat, cmdHeaderSize, cmdTypeSize]
  rcases hw with rfl | rfl <;> omega

/-- Sign extension, in numbers. -/
theorem toNat_sizeT (n : BitVec 32) :
    (sizeT n).toNat = if n.toNat < 2 ^ 31 then n.toNat else 2 ^ 64 - 2 ^ 32 + n.toNat := by
  have hlt := n.isLt
  rw [sizeT, BitVec.toNat_ofInt, BitVec.toInt_eq_toNat_cond]
  split_ifs <;> omega

/-- How many bytes a packet takes up, by the length of its data. -/
theorem toNat_sizeT_packetSize (n : BitVec 32) : (sizeT (packetSize n)).toNat =
    if (n.toNat + 17) % 2 ^ 32 < 2 ^ 31 then (n.toNat + 17) % 2 ^ 32 / 8 * 8
    else 2 ^ 64 - 2 ^ 32 + (n.toNat + 17) % 2 ^ 32 / 8 * 8 := by
  rw [toNat_sizeT, toNat_packetSize (Or.inl rfl)]
  split_ifs <;> omega

/-- `PACKET_SIZE`, where nothing overflows. -/
def packetLen (n : Nat) : Nat := (n + 17) / 8 * 8

/-- Up to the largest length that does not overflow, the size is the intended one. -/
theorem toNat_packetSize_of_le {w : Nat} (hw : w = 32 ∨ w = 64) {n : BitVec w}
    (h : n.toNat ≤ 2 ^ 31 - 18) : (packetSize n).toNat = packetLen n.toNat := by
  rw [toNat_packetSize hw, packetLen]
  rcases hw with rfl | rfl <;> omega

/-- Up to there, the conversion to `size_t` keeps the size. -/
theorem toNat_sizeT_of_le {n : BitVec 32} (h : n.toNat ≤ 2 ^ 31 - 18) :
    (sizeT (packetSize n)).toNat = packetLen n.toNat := by
  rw [toNat_sizeT_packetSize, packetLen, if_pos (by omega)]
  omega

/-- **`msg2Buffer`** appends the packet, whatever is behind it. -/
theorem msg2Buffer_eq {m : Message} {n : BitVec 32} (hn : m.dataLen = some n)
    (h : n.toNat ≤ 2 ^ 31 - 18) (hm : packetLen n.toNat ≤ m.length) (buf : Buffer) :
    msg2Buffer m buf = some (buf ++ m.take (packetLen n.toNat)) := by
  simp only [msg2Buffer, hn, toNat_sizeT_of_le h, Option.bind_eq_bind, Option.bind_some]
  exact if_pos hm

/-! ### Cutting packets off a buffer -/

variable {buf rest c : Buffer} {msg : Message}

/-- The length that the front of a buffer states. -/
def frontLen (buf : Buffer) : BitVec 32 := BitVec.ofNat 32 (natLE (buf.take 4))

/-- The size of the packet at the front of a buffer, if it has one. -/
def frontSize (buf : Buffer) : Nat := (sizeT (packetSize (frontLen buf))).toNat

/-- There is enough data if and only if the length field is there, and as many bytes as it says. -/
theorem enouthData_iff :
    enouthData buf = true ↔ 4 < buf.length ∧ frontSize buf ≤ buf.length := by
  simp only [enouthData, frontSize, frontLen]
  split_ifs with h
  · rw [decide_eq_true_eq]
    exact (and_iff_right h).symm
  · exact iff_of_false (by simp) fun h' ↦ h h'.1

/-- The length at the front is not changed by what arrives behind it. -/
theorem frontLen_append (h : 4 < buf.length) : frontLen (buf ++ c) = frontLen buf := by
  rw [frontLen, List.take_append_of_le_length (by omega), frontLen]

/-- What a signed size is in `size_t`, unless it is negative. -/
private theorem toNat_sizeT_of_nonneg {n : BitVec 32} (h : 0 ≤ n.toInt) :
    (sizeT n).toNat = n.toInt.toNat := by
  have hlt := n.isLt
  rw [BitVec.toInt_eq_toNat_cond] at h ⊢
  rw [toNat_sizeT]
  split_ifs at h ⊢ <;> omega

/-- **`newMsgFormBuffer`**, behind `enouthData`: the allocation may fail, for a negative size, and
nothing else. -/
theorem newMsgFormBuffer_eq (h : enouthData buf = true) : newMsgFormBuffer buf =
    if 0 ≤ (packetSize (frontLen buf)).toInt then
      some (buf.take (frontSize buf), buf.drop (frontSize buf))
    else none := by
  obtain ⟨hlen, hsize⟩ := enouthData_iff.1 h
  have hread : (leAt 0 4 buf).map (BitVec.ofNat 32) = some (frontLen buf) := by
    rw [leAt_of_le (by omega)]
    rfl
  simp only [newMsgFormBuffer, hread, Option.bind_eq_bind, Option.bind_some, newMessage]
  split_ifs with hneg
  · have hnat : (packetSize (frontLen buf)).toInt.toNat = frontSize buf :=
      (toNat_sizeT_of_nonneg hneg).symm
    show (memcpy _ 0 buf (frontSize buf)).bind (fun ptmp ↦ some (ptmp, buf.drop (frontSize buf)))
      = _
    rw [hnat, memcpy_of_le (by rw [List.length_replicate, Nat.zero_add]) hsize, Nat.zero_add,
      List.drop_of_length_le (by rw [List.length_replicate])]
    simp only [List.take_zero, List.nil_append, List.append_nil, Option.bind_some]
  · rfl

theorem enouthData_append (h : enouthData buf = true) (c : Buffer) :
    enouthData (buf ++ c) = true := by
  obtain ⟨hlen, hsize⟩ := enouthData_iff.1 h
  refine enouthData_iff.2 ⟨by rw [List.length_append]; omega, ?_⟩
  rw [frontSize, frontLen_append hlen, List.length_append]
  exact Nat.le_add_right_of_le hsize

/-- The packets on a connection, as frames. -/
def packets : Reader UInt8 Message where
  ready := enouthData
  take := newMsgFormBuffer
  ready_append _ c h := enouthData_append h c
  take_append b c h := by
    obtain ⟨hlen, hsize⟩ := enouthData_iff.1 h
    rw [newMsgFormBuffer_eq (enouthData_append h c), newMsgFormBuffer_eq h, frontSize,
      frontLen_append hlen, ← frontSize]
    split_ifs
    · rw [List.take_append_of_le_length hsize, List.drop_append_of_le_length hsize]
      rfl
    · rfl

/-! ### Lengths that are no lengths -/

/-- A packet with data of this length can be allocated: its size, as an `int32_t`, is not
negative. -/
def Allocates (n : BitVec 32) : Prop := 0 ≤ (packetSize n).toInt

/-- The stated length is one that a packet can have, or one of the seventeen values below zero, for
which rounding wraps around to a small packet. -/
theorem allocates_iff {n : BitVec 32} :
    Allocates n ↔ n.toNat ≤ 2 ^ 31 - 18 ∨ 2 ^ 32 - 17 ≤ n.toNat := by
  have hlt := n.isLt
  rw [Allocates, BitVec.toInt_eq_toNat_cond, toNat_packetSize (Or.inl rfl)]
  split_ifs <;> omega

/-- A packet is cut off if and only if it can be allocated, and then at the size that its length
field says. -/
theorem newMsgFormBuffer_eq_some_iff (h : enouthData buf = true) :
    newMsgFormBuffer buf = some (msg, rest) ↔ Allocates (frontLen buf) ∧
      msg = buf.take (frontSize buf) ∧ rest = buf.drop (frontSize buf) := by
  rw [newMsgFormBuffer_eq h, Allocates]
  split_ifs with hpos
  · rw [Option.some.injEq, Prod.mk.injEq, eq_comm (a := msg), eq_comm (a := rest)]
    exact (and_iff_right hpos).symm
  · exact iff_of_false (by simp) fun h' ↦ hpos h'.1

/-- A whole packet is at the front of the buffer, but there is no getting past it: a stated length
from -17 to -10 makes it empty, and one below makes it, should that much ever have arrived, too
large to be allocated. -/
def Stalls (buf : Buffer) : Prop :=
  4 < buf.length ∧ frontSize buf ≤ buf.length ∧
    2 ^ 31 - 17 ≤ (frontLen buf).toNat ∧ (frontLen buf).toNat ≤ 2 ^ 32 - 10

instance (buf : Buffer) : Decidable (Stalls buf) :=
  inferInstanceAs (Decidable (4 < buf.length ∧ frontSize buf ≤ buf.length ∧
    2 ^ 31 - 17 ≤ (frontLen buf).toNat ∧ (frontLen buf).toNat ≤ 2 ^ 32 - 10))

/-- In a buffer that fits into memory, it is the stated length that decides. -/
theorem stalls_iff (hlen : buf.length < 2 ^ 63) : Stalls buf ↔ 4 < buf.length ∧
    2 ^ 32 - 17 ≤ (frontLen buf).toNat ∧ (frontLen buf).toNat ≤ 2 ^ 32 - 10 := by
  have hlt := (frontLen buf).isLt
  rw [Stalls, frontSize, toNat_sizeT_packetSize]
  split_ifs <;> omega

/-- **Taking a packet.** Behind `enouthData`, either the buffer stalls or it gets shorter. -/
theorem exists_shorter_iff (h : enouthData buf = true) :
    (∃ msg rest, newMsgFormBuffer buf = some (msg, rest) ∧ rest.length < buf.length) ↔
      ¬ Stalls buf := by
  obtain ⟨hlen, hsize⟩ := enouthData_iff.1 h
  have hlt := (frontLen buf).isLt
  have hstalls : Stalls buf ↔ ¬ (Allocates (frontLen buf) ∧ 0 < frontSize buf) := by
    rw [allocates_iff, Stalls, frontSize, toNat_sizeT_packetSize]
    rw [frontSize, toNat_sizeT_packetSize] at hsize
    split_ifs at hsize ⊢ <;> omega
  rw [hstalls, not_not]
  constructor
  · intro ⟨msg, rest, htake, hshort⟩
    obtain ⟨halloc, -, rfl⟩ := (newMsgFormBuffer_eq_some_iff h).1 htake
    rw [List.length_drop] at hshort
    exact ⟨halloc, by omega⟩
  · intro ⟨halloc, hpos⟩
    refine ⟨_, _, (newMsgFormBuffer_eq_some_iff h).2 ⟨halloc, rfl, rfl⟩, ?_⟩
    rw [List.length_drop]
    omega

/-! ### Boundaries -/

/-- The offsets at which packets start, going by the lengths that the bytes themselves state. -/
inductive Boundary : List UInt8 → Nat → Prop
  | zero (b) : Boundary b 0
  | next {b k} : 4 < b.length → frontSize b ≤ b.length → Allocates (frontLen b) →
    Boundary (b.drop (frontSize b)) k → Boundary b (frontSize b + k)

/-- The loops meet the boundaries. -/
theorem exists_reads_iff :
    (∃ ms, packets.Reads buf ms rest) ↔ ∃ k, Boundary buf k ∧ rest = buf.drop k := by
  constructor
  · intro ⟨ms, h⟩
    induction h with
    | nil b => exact ⟨0, .zero b, rfl⟩
    | @cons b m b' ms r hready htake _ ih =>
      obtain ⟨k, hk, rfl⟩ := ih
      obtain ⟨halloc, -, rfl⟩ := (newMsgFormBuffer_eq_some_iff hready).1 htake
      obtain ⟨hlen, hsize⟩ := enouthData_iff.1 hready
      exact ⟨frontSize b + k, .next hlen hsize halloc hk, by rw [List.drop_drop]⟩
  · intro ⟨k, hk, hrest⟩
    subst hrest
    induction hk with
    | zero b => exact ⟨[], .nil b⟩
    | @next b k hlen hsize halloc _ ih =>
      obtain ⟨ms, hreads⟩ := ih
      have hready := enouthData_iff.2 ⟨hlen, hsize⟩
      rw [List.drop_drop] at hreads
      exact ⟨_, .cons hready ((newMsgFormBuffer_eq_some_iff hready).2 ⟨halloc, rfl, rfl⟩) hreads⟩

end QCLib
