import QCLib.Foundations.Bytes
import QCLib.Foundations.StepRun

/-!
# The buffer of the network library

`Buffer` of muduo's `net/Buffer.h` and `net/Buffer.cc`: a vector with a reader index and a writer
index in it. Between the two are the readable bytes, its `content`; behind them there is room to
write, and in front of them room for a header.

The class promises a queue of bytes. `run_content` says that it is one, over every run of its
operations that meets their assertions, while there is memory and no more than an `int` counts is
left at a `shrink`: no assertion within the class fails, whatever was moved or grown in between.
`run_size_le` bounds the memory that it takes, by twice what it ever had to hold, or what a new
buffer takes up.

Sizes are natural numbers, up to `maxSize` for a vector: no object is larger, so there is nothing to
wrap around. As everywhere, `none` is an assertion that fails, undefined behaviour or a failed
allocation.

Each operation has a lemma that says when it is defined and what it does to the content
(`exists_append`, `exists_shrink` and so on), and these are all that is used of the bodies. `Op`
collects the operations, with `effect` as their meaning on a queue, so a run of the buffer is
compared with a run of the queue, one step at a time.

The invariant that the indices are in order is carried by the type. Growing is as in the source: the
content is moved to the front if that makes enough room, and the vector is made longer otherwise.
`bound` is what a run may take up, and is shown without looking at which of the two happened.
-/

open Bytes StepRun

namespace QCLib.Muduo

/-- `Buffer::kCheapPrepend`. -/
def kCheapPrepend : Nat := 8

/-- `Buffer::kInitialSize`. -/
def kInitialSize : Nat := 1024

/-- `std::vector<char>::max_size()`. -/
def maxSize : Nat := 2 ^ 63 - 1

/-- The size of `extrabuf` in `readFd`. -/
def extrabufSize : Nat := 65536

/-- `Buffer`: a vector and the two indices into it. The fields beside them are the assertions that
the class relies on, so no other buffer can be built. -/
structure Buffer where
  buffer : List UInt8
  readerIndex : Nat
  writerIndex : Nat
  reader_le : readerIndex ≤ writerIndex
  writer_le : writerIndex ≤ buffer.length
  cheap_le : kCheapPrepend ≤ buffer.length
  size_le : buffer.length ≤ maxSize

namespace Buffer

/-- The vector that `Buffer(initialSize)` allocates. -/
def initial (initialSize : Nat) (h : kCheapPrepend + initialSize ≤ maxSize) : Buffer where
  buffer := List.replicate (kCheapPrepend + initialSize) 0
  readerIndex := kCheapPrepend
  writerIndex := kCheapPrepend
  reader_le := Nat.le_refl _
  writer_le := by rw [List.length_replicate]; omega
  cheap_le := by rw [List.length_replicate]; omega
  size_le := by rw [List.length_replicate]; exact h

/-- `Buffer(initialSize)`, where the vector can be that long. -/
def new (initialSize : Nat) : Option Buffer :=
  if h : kCheapPrepend + initialSize ≤ maxSize then some (initial initialSize h) else none

/-- `readableBytes`. -/
def readableBytes (b : Buffer) : Nat := b.writerIndex - b.readerIndex

/-- `writableBytes`. -/
def writableBytes (b : Buffer) : Nat := b.buffer.length - b.writerIndex

/-- `prependableBytes`. -/
def prependableBytes (b : Buffer) : Nat := b.readerIndex

/-- `peek`: the memory from the first readable byte on. -/
def peek (b : Buffer) : List UInt8 := b.buffer.drop b.readerIndex

/-- The readable bytes. -/
def content (b : Buffer) : List UInt8 := b.peek.take b.readableBytes

theorem reader_add_readableBytes (b : Buffer) :
    b.readerIndex + b.readableBytes = b.writerIndex := by
  have := b.reader_le
  rw [readableBytes]
  omega

theorem writer_add_writableBytes (b : Buffer) :
    b.writerIndex + b.writableBytes = b.buffer.length := by
  have := b.writer_le
  rw [writableBytes]
  omega

@[simp] theorem length_content (b : Buffer) : b.content.length = b.readableBytes := by
  have := b.reader_add_readableBytes
  have := b.writer_le
  rw [content, peek, List.length_take, List.length_drop]
  omega

/-! ### Reading -/

/-- `retrieveAll`: both indices go back to the start. -/
def retrieveAll (b : Buffer) : Buffer :=
  { b with
    readerIndex := kCheapPrepend
    writerIndex := kCheapPrepend
    reader_le := Nat.le_refl _
    writer_le := b.cheap_le }

/-- `retrieve`: the reader index moves on, or both go back to the start when all has been taken. -/
def retrieve (b : Buffer) (len : Nat) : Option Buffer :=
  if len ≤ b.readableBytes then
    if h : len < b.readableBytes then
      some { b with
        readerIndex := b.readerIndex + len
        reader_le := by rw [readableBytes] at h; omega }
    else some b.retrieveAll
  else none

/-- `retrieveAsString`. -/
def retrieveAsString (b : Buffer) (len : Nat) : Option (List UInt8 × Buffer) :=
  (b.retrieve len).map fun b' ↦ (b.peek.take len, b')

/-- `retrieveAllAsString`. -/
def retrieveAllAsString (b : Buffer) : Option (List UInt8 × Buffer) :=
  b.retrieveAsString b.readableBytes

/-- `toStringPiece`, whose length is an `int`. -/
def toStringPiece (b : Buffer) : Option (List UInt8) :=
  let len := (BitVec.ofNat 32 b.readableBytes).toInt
  if 0 ≤ len then some (b.peek.take len.toNat) else none

/-! ### Writing -/

/-- `makeSpace`, where there is not enough of it. -/
def makeSpace (b : Buffer) (len : Nat) (hlen : b.writableBytes < len) : Option Buffer :=
  if b.writableBytes + b.prependableBytes < len + kCheapPrepend then
    -- `buffer_.resize(writerIndex_+len)`
    if h : b.writerIndex + len ≤ maxSize then
      have hsize : (b.buffer ++ List.replicate (b.writerIndex + len - b.buffer.length) 0).length =
          b.writerIndex + len := by
        rw [writableBytes] at hlen
        rw [List.length_append, List.length_replicate]
        omega
      some { b with
        buffer := b.buffer ++ List.replicate (b.writerIndex + len - b.buffer.length) 0
        writer_le := by rw [hsize]; omega
        cheap_le := by rw [List.length_append]; exact Nat.le_add_right_of_le b.cheap_le
        size_le := by rw [hsize]; exact h }
    else none
  else if h : kCheapPrepend < b.readerIndex then
    have hcontent : kCheapPrepend + b.content.length ≤ b.buffer.length := by
      have := b.reader_add_readableBytes
      have := b.writer_le
      rw [length_content]
      omega
    some
      { buffer := store b.buffer kCheapPrepend b.content
        readerIndex := kCheapPrepend
        writerIndex := kCheapPrepend + b.readableBytes
        reader_le := Nat.le_add_right _ _
        writer_le := by rw [length_store hcontent, ← b.length_content]; exact hcontent
        cheap_le := by rw [length_store hcontent]; exact b.cheap_le
        size_le := by rw [length_store hcontent]; exact b.size_le }
  else none

/-- `ensureWritableBytes`, with its assertion at the end. -/
def ensureWritableBytes (b : Buffer) (len : Nat) : Option Buffer := do
  let b ← (if h : b.writableBytes < len then b.makeSpace len h else some b)
  if len ≤ b.writableBytes then some b else none

/-- `hasWritten`, for a caller that wrote `data` to `beginWrite()`. -/
def hasWritten (b : Buffer) (data : List UInt8) : Option Buffer :=
  if h : data.length ≤ b.writableBytes then
    have hdata : b.writerIndex + data.length ≤ b.buffer.length := by
      have := b.writer_le
      rw [writableBytes] at h
      omega
    some { b with
      buffer := store b.buffer b.writerIndex data
      writerIndex := b.writerIndex + data.length
      reader_le := Nat.le_add_right_of_le b.reader_le
      writer_le := by rw [length_store hdata]; exact hdata
      cheap_le := by rw [length_store hdata]; exact b.cheap_le
      size_le := by rw [length_store hdata]; exact b.size_le }
  else none

/-- `append`: make room, and copy the data behind the content. -/
def append (b : Buffer) (data : List UInt8) : Option Buffer := do
  let b ← b.ensureWritableBytes data.length
  b.hasWritten data

/-- `unwrite`: the last bytes of the content are given up. -/
def unwrite (b : Buffer) (len : Nat) : Option Buffer :=
  if h : len ≤ b.readableBytes then
    some { b with
      writerIndex := b.writerIndex - len
      reader_le := by have := b.reader_le; rw [readableBytes] at h; omega
      writer_le := Nat.sub_le_of_le_add (Nat.le_add_right_of_le b.writer_le) }
  else none

/-- `prepend`: the data is copied in front of the content, where there has to be room. -/
def prepend (b : Buffer) (data : List UInt8) : Option Buffer :=
  if h : data.length ≤ b.prependableBytes then
    have hdata : b.readerIndex - data.length + data.length ≤ b.buffer.length := by
      have := b.reader_le
      have := b.writer_le
      rw [prependableBytes] at h
      omega
    some { b with
      buffer := store b.buffer (b.readerIndex - data.length) data
      readerIndex := b.readerIndex - data.length
      reader_le := Nat.sub_le_of_le_add (Nat.le_add_right_of_le b.reader_le)
      writer_le := by rw [length_store hdata]; exact b.writer_le
      cheap_le := by rw [length_store hdata]; exact b.cheap_le
      size_le := by rw [length_store hdata]; exact b.size_le }
  else none

/-- `shrink`: the content is copied to a new vector with some room behind it. -/
def shrink (b : Buffer) (reserve : Nat) : Option Buffer := do
  let other ← Buffer.new kInitialSize
  let other ← other.ensureWritableBytes (b.readableBytes + reserve)
  other.append (← b.toStringPiece)

/-- How much `readFd` lets `readv` read. -/
def offered (b : Buffer) : Nat :=
  if b.writableBytes < extrabufSize then b.writableBytes + extrabufSize else b.writableBytes

/-- `readFd`, when `readv` reads these bytes: first into the vector, then into `extrabuf`. -/
def readFd (b : Buffer) (incoming : List UInt8) : Option Buffer :=
  if incoming.length ≤ b.offered then do
    let writable := b.writableBytes
    let b ← b.hasWritten (incoming.take writable)
    if incoming.length ≤ writable then some b else b.append (incoming.drop writable)
  else none

variable {b b' : Buffer} {data incoming : List UInt8} {len reserve : Nat}

theorem content_eq (b : Buffer) : b.content = (b.buffer.take b.writerIndex).drop b.readerIndex := by
  rw [content, peek, List.drop_take, readableBytes]

/-- The vector is the room in front, the content and the room behind. -/
theorem readableBytes_add_le (b : Buffer) :
    b.readerIndex + b.readableBytes + b.writableBytes = b.buffer.length := by
  rw [reader_add_readableBytes, writer_add_writableBytes]

/-! ### What each operation does -/

/-- What an operation has made of `b`: a buffer with the content `c`, which takes up at most `size`
bytes and has the room in front that a header needs, if `b` had it. -/
structure Makes (b : Buffer) (c : List UInt8) (size : Nat) (b' : Buffer) : Prop where
  content_eq : b'.content = c
  length_le : b'.buffer.length ≤ size
  prependable_le : kCheapPrepend ≤ b.prependableBytes → kCheapPrepend ≤ b'.prependableBytes

namespace Makes

theorem mono {c : List UInt8} {n m : Nat} (h : Makes b c n b') (hle : n ≤ m) : Makes b c m b' :=
  ⟨h.content_eq, Nat.le_trans h.length_le hle, h.prependable_le⟩

theorem trans {c c' : List UInt8} {n m : Nat} {b'' : Buffer} (h : Makes b c n b')
    (h' : Makes b' c' m b'') : Makes b c' m b'' :=
  ⟨h'.content_eq, h'.length_le, fun hb ↦ h'.prependable_le (h.prependable_le hb)⟩

end Makes

/-- `retrieveAll` leaves nothing, and all the room there is. -/
theorem makes_retrieveAll (b : Buffer) : Makes b [] b.buffer.length b.retrieveAll where
  content_eq := by rw [content, readableBytes, retrieveAll, Nat.sub_self, List.take_zero]
  length_le := Nat.le_refl _
  prependable_le _ := Nat.le_refl _

/-- **`retrieve`** takes so many bytes off the front; after the last one it moves both indices back.
-/
theorem exists_retrieve (h : len ≤ b.readableBytes) :
    ∃ b', b.retrieve len = some b' ∧ Makes b (b.content.drop len) b.buffer.length b' := by
  rw [retrieve, if_pos h]
  rcases Nat.lt_or_ge len b.readableBytes with hlt | hge
  · rw [dif_pos hlt]
    refine ⟨_, rfl, ?_, Nat.le_refl _, fun hb ↦ Nat.le_add_right_of_le hb⟩
    rw [content_eq, content_eq, List.drop_drop]
  · rw [dif_neg (Nat.not_lt.2 hge), List.drop_of_length_le (by rw [length_content]; exact hge)]
    exact ⟨_, rfl, b.makes_retrieveAll⟩

/-- Where `retrieve` is defined, there were so many bytes. -/
theorem content_of_retrieve (h : b.retrieve len = some b') :
    len ≤ b.readableBytes ∧ b'.content = b.content.drop len := by
  have hle : len ≤ b.readableBytes := by
    by_contra hgt
    rw [retrieve, if_neg hgt] at h
    cases h
  obtain ⟨b₁, hretrieve, hmakes⟩ := exists_retrieve hle
  obtain rfl := Option.some.inj (hretrieve.symm.trans h)
  exact ⟨hle, hmakes.content_eq⟩

/-- **`unwrite`** takes so many bytes off the end. -/
theorem exists_unwrite (h : len ≤ b.readableBytes) : ∃ b', b.unwrite len = some b' ∧
    Makes b (b.content.take (b.content.length - len)) b.buffer.length b' := by
  rw [unwrite, dif_pos h]
  refine ⟨_, rfl, ?_, Nat.le_refl _, fun hb ↦ hb⟩
  have hsum := b.reader_add_readableBytes
  rw [length_content, content, content, List.take_take]
  show b.peek.take (b.writerIndex - len - b.readerIndex) = _
  congr 1
  omega

/-- **`prepend`** puts a header in front, where there is room for it. -/
theorem exists_prepend (h : data.length ≤ b.prependableBytes) : ∃ b', b.prepend data = some b' ∧
    b'.content = data ++ b.content ∧ b'.buffer.length = b.buffer.length := by
  rw [prepend, dif_pos h]
  rw [prependableBytes] at h
  have hsum := b.readableBytes_add_le
  have hdata : b.readerIndex - data.length + data.length ≤ b.buffer.length := by omega
  refine ⟨_, rfl, ?_, length_store hdata⟩
  have hpeek : (store b.buffer (b.readerIndex - data.length) data).drop
      (b.readerIndex - data.length) = data ++ b.peek := by
    rw [drop_store hdata, Nat.sub_add_cancel h, peek]
  show (List.drop (b.readerIndex - data.length) _).take
    (b.writerIndex - (b.readerIndex - data.length)) = _
  have hlen : b.writerIndex - (b.readerIndex - data.length) =
      data.length + b.readableBytes := by
    have := b.reader_add_readableBytes
    omega
  rw [hpeek, hlen, List.take_length_add_append, content]

/-- **`hasWritten`** makes content of what has been written behind it. -/
theorem exists_hasWritten (h : data.length ≤ b.writableBytes) :
    ∃ b', b.hasWritten data = some b' ∧ Makes b (b.content ++ data) b.buffer.length b' ∧
      b'.writableBytes = b.writableBytes - data.length := by
  rw [hasWritten, dif_pos h]
  have hsum := b.writer_add_writableBytes
  have hdata : b.writerIndex + data.length ≤ b.buffer.length := by omega
  refine ⟨_, rfl, ⟨?_, Nat.le_of_eq (length_store hdata), fun hb ↦ hb⟩, ?_⟩
  · have hreader : b.readerIndex ≤ (b.buffer.take b.writerIndex).length := by
      rw [List.length_take_of_le b.writer_le]
      exact b.reader_le
    rw [content_eq, content_eq, ← List.drop_append_of_le_length hreader]
    exact congrArg (List.drop b.readerIndex) (take_store hdata)
  · show (store b.buffer b.writerIndex data).length - (b.writerIndex + data.length) = _
    rw [length_store hdata, writableBytes]
    omega

/-- The most that the vector takes up when `len` bytes more than the content have to fit. -/
def grown (b : Buffer) (len : Nat) : Nat :=
  max b.buffer.length (kCheapPrepend + 2 * (b.content.length + len))

/-- There may be no memory, but the assertion in `makeSpace` never fails: where the vector need not
grow, the reader has moved on. -/
theorem makeSpace_or (hlen : b.writableBytes < len) :
    (b.makeSpace len hlen = none ∧ maxSize < kCheapPrepend + 2 * (b.content.length + len)) ∨
    ∃ b', b.makeSpace len hlen = some b' ∧ len ≤ b'.writableBytes ∧
      Makes b b.content (b.grown len) b' := by
  have hsum := b.readableBytes_add_le
  have hwriter := b.reader_add_readableBytes
  rw [grown, length_content, makeSpace]
  split_ifs with hgrow hle hmove
  · -- The vector grows, by less than there is to hold since the reader is near the front.
    rw [prependableBytes] at hgrow
    have hsize : (b.buffer ++ List.replicate (b.writerIndex + len - b.buffer.length) 0).length =
        b.writerIndex + len := by
      rw [List.length_append, List.length_replicate]
      omega
    refine .inr ⟨_, rfl, ?_, ?_, ?_, fun hb ↦ hb⟩
    · show len ≤ (b.buffer ++ List.replicate _ 0).length - b.writerIndex
      omega
    · rw [content_eq, content_eq]
      exact congrArg (List.drop b.readerIndex) (List.take_append_of_le_length b.writer_le)
    · show (b.buffer ++ List.replicate _ 0).length ≤ _
      omega
  · rw [prependableBytes] at hgrow
    exact .inl ⟨rfl, by omega⟩
  · -- The content moves to the front.
    rw [prependableBytes] at hgrow
    have hcontent : kCheapPrepend + b.content.length ≤ b.buffer.length := by
      rw [length_content]
      omega
    refine .inr ⟨_, rfl, ?_, ?_, ?_, fun _ ↦ Nat.le_refl _⟩
    · show len ≤ (store b.buffer kCheapPrepend b.content).length -
        (kCheapPrepend + b.readableBytes)
      rw [length_store hcontent]
      omega
    · have htake := take_store hcontent
      rw [length_content] at htake
      rw [content_eq]
      show ((store b.buffer kCheapPrepend b.content).take
        (kCheapPrepend + b.readableBytes)).drop kCheapPrepend = b.content
      rw [htake, List.drop_left' (List.length_take_of_le b.cheap_le)]
    · show (store b.buffer kCheapPrepend b.content).length ≤ _
      rw [length_store hcontent]
      exact Nat.le_max_left _ _
  · rw [prependableBytes] at hgrow
    omega

/-- `ensureWritableBytes` makes the room that is asked for, or there is no memory; the content
stays. -/
theorem ensureWritableBytes_or (b : Buffer) (len : Nat) :
    (b.ensureWritableBytes len = none ∧ maxSize < kCheapPrepend + 2 * (b.content.length + len)) ∨
    ∃ b', b.ensureWritableBytes len = some b' ∧ len ≤ b'.writableBytes ∧
      Makes b b.content (b.grown len) b' := by
  have hspace : ((if h : b.writableBytes < len then b.makeSpace len h else some b) = none ∧
        maxSize < kCheapPrepend + 2 * (b.content.length + len)) ∨
      ∃ b', (if h : b.writableBytes < len then b.makeSpace len h else some b) = some b' ∧
        len ≤ b'.writableBytes ∧ Makes b b.content (b.grown len) b' := by
    split_ifs with h
    · exact makeSpace_or h
    · exact .inr ⟨b, rfl, Nat.not_lt.1 h, rfl, Nat.le_max_left _ _, fun hb ↦ hb⟩
  rcases hspace with ⟨hnone, hmax⟩ | ⟨b', hsome, hroom, hmakes⟩
  · refine .inl ⟨?_, hmax⟩
    rw [ensureWritableBytes, hnone]
    rfl
  · refine .inr ⟨b', ?_, hroom, hmakes⟩
    rw [ensureWritableBytes, hsome]
    exact if_pos hroom

/-- **`ensureWritableBytes`**, where there is memory for twice of what it is asked for. -/
theorem exists_ensureWritableBytes
    (hmax : kCheapPrepend + 2 * (b.content.length + len) ≤ maxSize) :
    ∃ b', b.ensureWritableBytes len = some b' ∧ len ≤ b'.writableBytes ∧
      Makes b b.content (b.grown len) b' :=
  (b.ensureWritableBytes_or len).resolve_left fun h ↦ Nat.not_lt.2 hmax h.2

/-- `append` puts the bytes behind the content, or there is no memory. -/
theorem append_or (b : Buffer) (data : List UInt8) :
    (b.append data = none ∧ maxSize < kCheapPrepend + 2 * (b.content.length + data.length)) ∨
    ∃ b', b.append data = some b' ∧ Makes b (b.content ++ data) (b.grown data.length) b' := by
  rcases b.ensureWritableBytes_or data.length with ⟨hnone, hmax⟩ | ⟨b₁, hensure, hroom, hmakes₁⟩
  · refine .inl ⟨?_, hmax⟩
    rw [append, hnone]
    rfl
  · obtain ⟨b', hwrite, hmakes, -⟩ := exists_hasWritten hroom
    refine .inr ⟨b', ?_, ?_⟩
    · rw [append, hensure]
      exact hwrite
    · rw [hmakes₁.content_eq] at hmakes
      exact hmakes₁.trans (hmakes.mono hmakes₁.length_le)

/-- **`append`**, where there is memory for twice of what has to fit. -/
theorem exists_append (hmax : kCheapPrepend + 2 * (b.content.length + data.length) ≤ maxSize) :
    ∃ b', b.append data = some b' ∧ Makes b (b.content ++ data) (b.grown data.length) b' :=
  (b.append_or data).resolve_left fun h ↦ Nat.not_lt.2 hmax h.2

/-- Where `append` is defined, nothing is lost: making space moves the bytes that are there and
drops none. -/
theorem content_of_append (h : b.append data = some b') : b'.content = b.content ++ data := by
  rcases b.append_or data with ⟨hnone, -⟩ | ⟨b₁, happend, hmakes⟩
  · rw [hnone] at h
    cases h
  · obtain rfl := Option.some.inj (happend.symm.trans h)
    exact hmakes.content_eq

/-- `toStringPiece` stores the length in an `int`, and is the content as long as the length fits. -/
theorem toStringPiece_eq (h : b.content.length < 2 ^ 31) : b.toStringPiece = some b.content := by
  rw [length_content] at h
  have hlen : (BitVec.ofNat 32 b.readableBytes).toInt = b.readableBytes := by
    rw [BitVec.toInt_eq_toNat_cond, BitVec.toNat_ofNat]
    split_ifs <;> omega
  rw [toStringPiece, hlen, if_pos (Int.natCast_nonneg _), Int.toNat_natCast, content]

theorem content_initial {n : Nat} (h : kCheapPrepend + n ≤ maxSize) :
    (initial n h).content = [] := by
  rw [content, readableBytes, initial, Nat.sub_self, List.take_zero]

/-- **`shrink`** copies the content into a new buffer, by a `StringPiece` whose length is an `int`.
-/
theorem exists_shrink (hint : b.content.length < 2 ^ 31)
    (hmax : kCheapPrepend + 2 * (b.content.length + reserve) ≤ maxSize) :
    ∃ b', b.shrink reserve = some b' ∧ Makes b b.content
      (max (kCheapPrepend + kInitialSize)
        (kCheapPrepend + 2 * (b.content.length + reserve))) b' := by
  have hnew : kCheapPrepend + kInitialSize ≤ maxSize := by decide
  have hcontent := content_initial hnew
  have hlen : (initial kInitialSize hnew).content.length = 0 := by
    rw [hcontent, List.length_nil]
  have hsize : (initial kInitialSize hnew).buffer.length = kCheapPrepend + kInitialSize :=
    List.length_replicate
  rw [length_content] at hmax
  have hmax₁ : kCheapPrepend + 2 * ((initial kInitialSize hnew).content.length +
      (b.readableBytes + reserve)) ≤ maxSize := by omega
  obtain ⟨b₁, hensure, hspace, hmakes₁⟩ := exists_ensureWritableBytes hmax₁
  -- What was reserved is enough for the content, so nothing moves again.
  have hwritable : b.content.length ≤ b₁.writableBytes := by
    rw [length_content]
    omega
  obtain ⟨b', hwrite, hmakes, -⟩ := exists_hasWritten hwritable
  have happend : b₁.append b.content = some b' := by
    rw [append, ensureWritableBytes, dif_neg (Nat.not_lt.2 hwritable)]
    show (if b.content.length ≤ b₁.writableBytes then some b₁ else none).bind _ = _
    rw [if_pos hwritable]
    exact hwrite
  refine ⟨b', ?_, ?_, ?_, fun _ ↦ ?_⟩
  · rw [shrink, Buffer.new, dif_pos hnew]
    show ((initial kInitialSize hnew).ensureWritableBytes (b.readableBytes + reserve)).bind _ = _
    rw [hensure, toStringPiece_eq hint]
    exact happend
  · rw [hmakes.content_eq, hmakes₁.content_eq, hcontent, List.nil_append]
  · have hle := Nat.le_trans hmakes.length_le hmakes₁.length_le
    rw [grown, hlen, hsize, Nat.zero_add] at hle
    rw [length_content]
    exact hle
  · exact hmakes.prependable_le (hmakes₁.prependable_le (Nat.le_refl _))

/-- **`readFd`** takes in what `readv` has read, whether it fits behind the content or not. -/
theorem exists_readFd (h : incoming.length ≤ b.offered)
    (hmax : kCheapPrepend + 2 * (b.content.length + incoming.length) ≤ maxSize) :
    ∃ b', b.readFd incoming = some b' ∧
      Makes b (b.content ++ incoming) (b.grown incoming.length) b' := by
  rw [readFd, if_pos h]
  have htake : (incoming.take b.writableBytes).length ≤ b.writableBytes := List.length_take_le _ _
  obtain ⟨b₁, hwrite, hmakes₁, -⟩ := exists_hasWritten htake
  show ∃ b', (b.hasWritten _).bind _ = some b' ∧ _
  rw [hwrite, Option.bind_some]
  rcases Nat.lt_or_ge b.writableBytes incoming.length with hlt | hge
  · -- The rest has gone to `extrabuf` and is appended.
    rw [if_neg (Nat.not_le.2 hlt)]
    have hsplit : (incoming.take b.writableBytes).length +
        (incoming.drop b.writableBytes).length = incoming.length := by
      rw [← List.length_append, List.take_append_drop]
    have hlen : b₁.content.length + (incoming.drop b.writableBytes).length =
        b.content.length + incoming.length := by
      rw [hmakes₁.content_eq, List.length_append]
      omega
    obtain ⟨b', happend, hmakes⟩ := exists_append (hlen ▸ hmax)
    rw [hmakes₁.content_eq, List.append_assoc, List.take_append_drop] at hmakes
    refine ⟨b', happend, hmakes₁.trans (hmakes.mono ?_)⟩
    have hsize := hmakes₁.length_le
    rw [grown, grown, hlen]
    omega
  · rw [if_pos hge]
    rw [List.take_of_length_le hge] at hmakes₁
    exact ⟨b₁, rfl, hmakes₁.mono (Nat.le_max_left _ _)⟩

/-! ### Runs -/

/-- The operations that move the indices; the others read, or are these at a fixed length. With
`hasWritten` go the bytes that the caller has written behind the content. -/
inductive Op where
  | append (data : List UInt8)
  | hasWritten (data : List UInt8)
  | retrieve (len : Nat)
  | retrieveAll
  | ensureWritableBytes (len : Nat)
  | unwrite (len : Nat)
  | prepend (data : List UInt8)
  | shrink (reserve : Nat)
  | readFd (incoming : List UInt8)
  deriving DecidableEq, Repr

namespace Op

/-- What calling the operation makes of a buffer. -/
def apply (b : Buffer) : Op → Option Buffer
  | append data => b.append data
  | hasWritten data => b.hasWritten data
  | retrieve len => b.retrieve len
  | retrieveAll => some b.retrieveAll
  | ensureWritableBytes len => b.ensureWritableBytes len
  | unwrite len => b.unwrite len
  | prepend data => b.prepend data
  | shrink reserve => b.shrink reserve
  | readFd incoming => b.readFd incoming

/-- What it means to a queue of bytes. -/
def effect (c : List UInt8) : Op → List UInt8
  | append data => c ++ data
  | hasWritten data => c ++ data
  | retrieve len => c.drop len
  | retrieveAll => []
  | ensureWritableBytes _ => c
  | unwrite len => c.take (c.length - len)
  | prepend data => data ++ c
  | shrink _ => c
  | readFd incoming => c ++ incoming

/-- How many bytes it asks the vector to hold; the ones that are not listed make do with the room
that there is. -/
def need (c : List UInt8) : Op → Nat
  | append data => c.length + data.length
  | ensureWritableBytes len => c.length + len
  | shrink reserve => c.length + reserve
  | readFd incoming => c.length + incoming.length
  | _ => 0

/-- Whether it is a `prepend`. -/
def isPrepend : Op → Bool
  | prepend _ => true
  | _ => false

/-- What its assertions say, and what `readv` and an `int` can do. -/
def Asserted (b : Buffer) : Op → Prop
  | hasWritten data => data.length ≤ b.writableBytes
  | retrieve len => len ≤ b.readableBytes
  | unwrite len => len ≤ b.readableBytes
  | prepend data => data.length ≤ b.prependableBytes
  | shrink _ => b.content.length < 2 ^ 31
  | readFd incoming => incoming.length ≤ b.offered
  | _ => True

instance (b : Buffer) : (op : Op) → Decidable (Asserted b op)
  | append _ | retrieveAll | ensureWritableBytes _ => inferInstanceAs (Decidable True)
  | hasWritten data => inferInstanceAs (Decidable (data.length ≤ b.writableBytes))
  | retrieve len | unwrite len => inferInstanceAs (Decidable (len ≤ b.readableBytes))
  | prepend data => inferInstanceAs (Decidable (data.length ≤ b.prependableBytes))
  | shrink _ => inferInstanceAs (Decidable (b.content.length < 2 ^ 31))
  | readFd incoming => inferInstanceAs (Decidable (incoming.length ≤ b.offered))

/-- What a caller has to see to: the assertions, and that there is so much memory. -/
def Allowed (b : Buffer) (op : Op) : Prop :=
  Asserted b op ∧ kCheapPrepend + 2 * op.need b.content ≤ maxSize

instance (b : Buffer) (op : Op) : Decidable (Allowed b op) := inferInstanceAs (Decidable (_ ∧ _))

end Op

/-- The most that the vector takes up after an operation on it. -/
def bound (b : Buffer) (need : Nat) : Nat :=
  max (max b.buffer.length (kCheapPrepend + kInitialSize)) (kCheapPrepend + 2 * need)

theorem grown_le_bound (b : Buffer) (len : Nat) : b.grown len ≤ b.bound (b.content.length + len) :=
  by
  rw [grown, bound]
  omega

theorem length_le_bound (b : Buffer) (need : Nat) : b.buffer.length ≤ b.bound need :=
  Nat.le_trans (Nat.le_max_left _ _) (Nat.le_max_left _ _)

/-- **One operation** does to the content what it means, and uses no more memory than that takes. -/
theorem exists_apply {op : Op} (h : op.Allowed b) : ∃ b', op.apply b = some b' ∧
    b'.content = op.effect b.content ∧ b'.buffer.length ≤ b.bound (op.need b.content) ∧
      (op.isPrepend = false → kCheapPrepend ≤ b.prependableBytes →
        kCheapPrepend ≤ b'.prependableBytes) := by
  obtain ⟨hassert, hmax⟩ := h
  -- An operation that makes what it means to, in so much memory as there is or as it needs.
  have hmade : ∀ {op : Op} {n : Nat}, n ≤ b.bound (op.need b.content) →
      (∃ b', op.apply b = some b' ∧ Makes b (op.effect b.content) n b') →
      ∃ b', op.apply b = some b' ∧ b'.content = op.effect b.content ∧
        b'.buffer.length ≤ b.bound (op.need b.content) ∧
          (op.isPrepend = false → kCheapPrepend ≤ b.prependableBytes →
            kCheapPrepend ≤ b'.prependableBytes) := by
    intro op n hn ⟨b', happly, hmakes⟩
    exact ⟨b', happly, hmakes.content_eq, Nat.le_trans hmakes.length_le hn,
      fun _ ↦ hmakes.prependable_le⟩
  cases op with
  | append data => exact hmade (b.grown_le_bound _) (exists_append hmax)
  | hasWritten data =>
    obtain ⟨b', hwrite, hmakes, -⟩ := exists_hasWritten hassert
    exact hmade (b.length_le_bound _) ⟨b', hwrite, hmakes⟩
  | retrieve len => exact hmade (b.length_le_bound _) (exists_retrieve hassert)
  | retrieveAll => exact hmade (b.length_le_bound _) ⟨_, rfl, b.makes_retrieveAll⟩
  | ensureWritableBytes len =>
    obtain ⟨b', hensure, -, hmakes⟩ := exists_ensureWritableBytes hmax
    exact hmade (b.grown_le_bound _) ⟨b', hensure, hmakes⟩
  | unwrite len => exact hmade (b.length_le_bound _) (exists_unwrite hassert)
  | prepend data =>
    obtain ⟨b', hprepend, hcontent, hlen⟩ := exists_prepend hassert
    exact ⟨b', hprepend, hcontent, hlen ▸ b.length_le_bound _, fun h ↦ by cases h⟩
  | shrink reserve =>
    refine hmade ?_ (exists_shrink hassert hmax)
    rw [bound, Op.need]
    omega
  | readFd incoming => exact hmade (b.grown_le_bound _) (exists_readFd hassert hmax)

/-- The operation runs on a buffer. -/
abbrev step (b : Buffer) (op : Op) : Option Buffer := op.apply b

/-- **Any run of operations** that meets the assertions is defined, and leaves what the operations
leave of a queue of bytes, as long as there is memory for twice of what it asks for, and a `shrink`
finds less than 2^31 bytes. -/
theorem run_content {ops : List Op} (h : Guarded step (fun b op ↦ op.Allowed b) b ops) :
    ∃ b', run step b ops = some b' ∧ b'.content = ops.foldl Op.effect b.content := by
  refine exists_run_refines (R := fun b c ↦ b.content = c) (fun b c op hcontent hallowed ↦ ?_) rfl h
  subst hcontent
  obtain ⟨b', happly, hcontent, -⟩ := exists_apply hallowed
  exact ⟨b', happly, hcontent⟩

/-- The third operation moves the content to the front, and the last one makes the vector grow. -/
theorem run_content_moving : ∃ b', run step (initial 4 (by decide))
    [.append [1, 2, 3, 4], .retrieve 3, .append [5, 6], .retrieve 1, .hasWritten [7],
      .readFd [8, 9, 10, 11]] = some b' ∧ b'.content = [5, 6, 7, 8, 9, 10, 11] :=
  run_content (by decide)

/-- **Memory.** A buffer that is never asked to hold more than `need` bytes takes up at most twice
as much and the room in front, unless it took up more from the start, or a new buffer does, which a
`shrink` puts in its place. -/
theorem run_size_le {ops : List Op} {need : Nat}
    (h : Guarded step (fun b op ↦ op.Allowed b ∧ op.need b.content ≤ need) b ops)
    (hrun : run step b ops = some b') : b'.buffer.length ≤ b.bound need := by
  refine run_inv (I := fun s ↦ s.buffer.length ≤ b.bound need) ?_ (b.length_le_bound need) h hrun
  intro s op s' hs ⟨hallowed, hneed⟩ happly
  obtain ⟨s₁, happly₁, -, hle, -⟩ := exists_apply hallowed
  obtain rfl := Option.some.inj (happly.symm.trans happly₁)
  rw [bound] at hs hle ⊢
  omega

/-- Four bytes at a time are never more than the vector was made for. -/
theorem run_size_le_appending : ∃ b',
    run step (initial 4 (by decide)) [.append [1, 2, 3, 4], .retrieve 4, .append [5, 6]] = some b' ∧
      b'.buffer.length ≤ (initial 4 (by decide)).bound 4 := by
  refine (Option.isSome_iff_exists.1 ?_).imp fun b' hrun ↦ ⟨hrun, run_size_le (by decide) hrun⟩
  decide

/-- **A header** of up to eight bytes can be put in front of whatever was written and read, as long
as none has been. -/
theorem run_prepend {ops : List Op} {header : List UInt8}
    (hroom : kCheapPrepend ≤ b.prependableBytes) (hheader : header.length ≤ kCheapPrepend)
    (h : Guarded step (fun b op ↦ op.Allowed b ∧ op.isPrepend = false) b ops) :
    ∃ b₁ b', run step b ops = some b₁ ∧ b₁.prepend header = some b' ∧
      b'.content = header ++ ops.foldl Op.effect b.content := by
  have hallowed : Guarded step (fun b op ↦ op.Allowed b) b ops := h.mono fun _ _ h ↦ h.1
  obtain ⟨b₁, hrun, hcontent⟩ := run_content hallowed
  have hroom₁ : kCheapPrepend ≤ b₁.prependableBytes := by
    refine run_inv (I := fun s ↦ kCheapPrepend ≤ s.prependableBytes) ?_ hroom h hrun
    intro s op s' hs ⟨hallowed, hop⟩ happly
    obtain ⟨s₁, happly₁, -, -, hkeep⟩ := exists_apply hallowed
    obtain rfl := Option.some.inj (happly.symm.trans happly₁)
    exact hkeep hop hs
  obtain ⟨b', hprepend, hcontent', -⟩ := exists_prepend (Nat.le_trans hheader hroom₁)
  exact ⟨b₁, b', hrun, hprepend, by rw [hcontent', hcontent]⟩

/-- A header of two bytes in front of what is left. -/
theorem run_prepend_length : ∃ b₁ b',
    run step (initial 4 (by decide)) [.append [1, 2, 3], .retrieve 1] = some b₁ ∧
      b₁.prepend [0, 2] = some b' ∧ b'.content = [0, 2, 2, 3] :=
  run_prepend (by decide) (by decide) (by decide)

end Buffer

end QCLib.Muduo
