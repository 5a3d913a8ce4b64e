import Mathlib.Algebra.Group.Nat.Defs
import Mathlib.Algebra.Ring.Int.Defs
import QCLib.Foundations.StepRun

/-!
# The log writer

`FileWriter` as `file_writer.cpp` has it: any thread appends lines to `m_buffer`, one thread swaps
the buffer with `m_cache` and writes the cache out in pieces. A step is one critical section or one
call of `write(2)`, so a list of events is one interleaving of the threads with one sequence of
results of the system call. The bytes that `write(2)` accepted and the lines that were appended are
kept beside the writer.

The result is added to the position as it comes, `-1` included, and that is the only thing that can
go wrong (`exact_iff`): a failed call moves the position one byte back.

`Exact` compares what the file holds with what was appended, in bytes and in their order. `Inv` adds
what is under way: the part of the cache that has been written, and what is left of it, which is
what the loop of `WriteFile` counts down. Changing the file is a step like the others.

The condition is on the events of the run: no call of `write(2)` returns -1. A call that writes less
than it was asked to is harmless.
-/

open StepRun

namespace QCLib

/-- A byte of a log line. -/
abbrev LogByte := UInt8

/-- Where the flushing thread is in `Flush2File`. -/
inductive FlushState where
  | idle
  /-- `SwitchBuffer` has returned `true`. -/
  | switched
  /-- In the loop of `WriteFile`, with its `dsize` and `pos`. -/
  | writing (dsize : Int) (pos : Nat)
  deriving DecidableEq, Repr

/-- The members that decide what is written, and the local variables of the flushing thread. -/
structure FileWriter where
  needRealWrite : Bool
  prevWriteTime : Int
  buffer : List LogByte
  cache : List LogByte
  intoFile : Bool
  offset : Int64
  flush : FlushState
  deriving DecidableEq, Repr

namespace FileWriter

/-- `WRITE_SIZE_PER_TIME`. -/
def writeSizePerTime : Int := 4 * 1024

/-- `LOGGER_FLUSH_SIZE`. -/
def loggerFlushSize : Nat := 64 * 1024

/-- `LOGGER_FILE_SIZE`. -/
def loggerFileSize : Int64 := 64 * 1024 * 1024

/-- `LOGGER_WRITE_TO_FILE_INTER`. -/
def loggerWriteToFileInter : Int := 1

/-- `FileWriter::IntoFileBuffer`: the line and its end. A string beyond `max_size` throws. -/
def intoFileBuffer (w : FileWriter) (data : List LogByte) (realtimeWrite : Bool) :
    Option FileWriter :=
  let buffer := w.buffer ++ data ++ [10]
  if buffer.length < 2 ^ 63 then some { w with needRealWrite := realtimeWrite, buffer } else none

/-- The swap in `SwitchBuffer`, with the update of the time that follows it. -/
def swapBuffer (w : FileWriter) (t : Int) : FileWriter :=
  { w with buffer := w.cache, cache := w.buffer, prevWriteTime := t, flush := .switched }

/-- `FileWriter::SwitchBuffer`: the buffer is handed to the flushing thread when it is large, when
somebody asked for it, or when it has waited. -/
def switchBuffer (w : FileWriter) (t : Int) : FileWriter :=
  if w.buffer.length > loggerFlushSize then w.swapBuffer t
  else if w.needRealWrite ∧ w.buffer ≠ [] then { w.swapBuffer t with needRealWrite := false }
  else if t - w.prevWriteTime > loggerWriteToFileInter then w.swapBuffer t
  else w

/-- `FileWriter::OpenNewFile`; `seekEnd` is the end of the opened file, or `none` if `open`
fails. -/
def openNewFile (w : FileWriter) (seekEnd : Option Int64) : FileWriter :=
  if w.intoFile then { w with offset := seekEnd.getD 0 } else w

/-- `FileWriter::SwitchFile`, and the local variables `WriteFile` starts with. -/
def switchFile (w : FileWriter) (seekEnd : Option Int64) : FileWriter :=
  let w := if w.offset < loggerFileSize then w else w.openNewFile seekEnd
  { w with flush := .writing w.cache.length 0 }

/-- One turn of the loop of `FileWriter::WriteFile`, for a result of `write(2)`: the bytes it took
and the writer after it. No call takes more than it is offered, or reads beyond the cache. -/
def write (w : FileWriter) (wsize : Int) : Option (List LogByte × FileWriter) :=
  match w.flush with
  | .writing dsize pos =>
    if 0 < dsize ∧ -1 ≤ wsize ∧ wsize ≤ min dsize writeSizePerTime ∧
        (wsize ≤ 0 ∨ pos + wsize ≤ w.cache.length) then
      -- The result joins the unsigned position whatever its sign.
      some ((w.cache.drop pos).take wsize.toNat,
        { w with flush := .writing (dsize - wsize) ((pos + wsize) % 2 ^ 64).toNat })
    else none
  | _ => none

/-- The end of `FileWriter::WriteFile`: the place in the file moves on by the whole cache, which is
empty again. -/
def endWrite (w : FileWriter) : FileWriter :=
  { w with offset := w.offset + Int64.ofNat w.cache.length, cache := [], flush := .idle }

@[simp] theorem switchFile_buffer (w : FileWriter) (seekEnd : Option Int64) :
    (w.switchFile seekEnd).buffer = w.buffer := by
  simp only [switchFile, openNewFile]
  split_ifs <;> rfl

@[simp] theorem switchFile_cache (w : FileWriter) (seekEnd : Option Int64) :
    (w.switchFile seekEnd).cache = w.cache := by
  simp only [switchFile, openNewFile]
  split_ifs <;> rfl

@[simp] theorem switchFile_flush (w : FileWriter) (seekEnd : Option Int64) :
    (w.switchFile seekEnd).flush = .writing w.cache.length 0 := by
  simp only [switchFile, openNewFile]
  split_ifs <;> rfl

/-- What a call of `write(2)` needs, and what it leaves. -/
theorem write_eq_some_iff {w w' : FileWriter} {wsize : Int} {bytes : List LogByte} :
    w.write wsize = some (bytes, w') ↔ ∃ dsize pos, w.flush = .writing dsize pos ∧
      (0 < dsize ∧ -1 ≤ wsize ∧ wsize ≤ min dsize writeSizePerTime ∧
        (wsize ≤ 0 ∨ pos + wsize ≤ w.cache.length)) ∧
      bytes = (w.cache.drop pos).take wsize.toNat ∧
      w' = { w with flush := .writing (dsize - wsize) ((pos + wsize) % 2 ^ 64).toNat } := by
  unfold write
  cases hflush : w.flush with
  | writing dsize pos =>
    simp only [FlushState.writing.injEq]
    split_ifs with hguard
    · constructor
      · intro h
        obtain ⟨rfl, rfl⟩ := Prod.mk.inj (Option.some.inj h)
        exact ⟨dsize, pos, ⟨rfl, rfl⟩, hguard, rfl, rfl⟩
      · rintro ⟨_, _, ⟨rfl, rfl⟩, -, rfl, rfl⟩
        rfl
    · constructor
      · simp
      · rintro ⟨_, _, ⟨rfl, rfl⟩, hguard', -⟩
        exact absurd hguard' hguard
  | idle | switched => simp

/-- The part of the cache that `WriteFile` has not written yet. -/
def unwritten (w : FileWriter) : List LogByte :=
  match w.flush with
  | .writing _ pos => w.cache.drop pos
  | _ => w.cache

/-- The position of `WriteFile` lies in the cache. -/
def PosInCache (w : FileWriter) : Prop :=
  match w.flush with
  | .writing _ pos => pos ≤ w.cache.length
  | _ => True

instance (w : FileWriter) : Decidable w.PosInCache := by
  unfold PosInCache
  split <;> infer_instance

end FileWriter

/-- A critical section, or a step of the flushing thread between two of them. -/
inductive LogEvent where
  | intoFileBuffer (data : List LogByte) (realtimeWrite : Bool)
  | switchBuffer (t : Int)
  | switchFile (seekEnd : Option Int64)
  | write (wsize : Int)
  | endWrite
  deriving DecidableEq, Repr

/-- The writer, with what it was given and what `write(2)` took. -/
structure LogHistory extends FileWriter where
  appended : List LogByte
  written : List LogByte
  deriving DecidableEq, Repr

namespace LogHistory

/-- One event; `none` when the flushing thread is elsewhere. -/
def step (s : LogHistory) : LogEvent → Option LogHistory
  | .intoFileBuffer data realtimeWrite => do
    let w ← s.intoFileBuffer data realtimeWrite
    return { s with toFileWriter := w, appended := s.appended ++ data ++ [10] }
  | .switchBuffer t =>
    if s.flush = .idle then some { s with toFileWriter := s.switchBuffer t } else none
  | .switchFile seekEnd =>
    if s.flush = .switched then some { s with toFileWriter := s.switchFile seekEnd } else none
  | .write wsize => do
    let (bytes, w) ← s.toFileWriter.write wsize
    return { s with toFileWriter := w, written := s.written ++ bytes }
  | .endWrite =>
    match s.flush with
    | .writing dsize _ =>
      if dsize ≤ 0 then some { s with toFileWriter := s.toFileWriter.endWrite } else none
    | _ => none

/-- A writer after `Init`; nothing sets `m_need_real_write`, and the file may have been there. -/
def start (needRealWrite intoFile : Bool) (offset : Int64) : LogHistory :=
  ⟨⟨needRealWrite, 0, [], [], intoFile, offset, .idle⟩, [], []⟩

/-- Every appended byte is written, about to be written, or in the buffer, once and in order, and
`WriteFile` is inside the cache. -/
structure Exact (s : LogHistory) : Prop where
  once : s.written ++ s.unwritten ++ s.buffer = s.appended
  position : s.PosInCache

instance (s : LogHistory) : Decidable s.Exact :=
  decidable_of_iff (s.written ++ s.unwritten ++ s.buffer = s.appended ∧ s.PosInCache)
    ⟨fun h ↦ ⟨h.1, h.2⟩, fun h ↦ ⟨h.1, h.2⟩⟩

/-! ### The invariant -/

/-- What makes the loop of `WriteFile` end where the cache does. -/
structure Inv (s : LogHistory) : Prop extends Exact s where
  buffer_lt : s.buffer.length < 2 ^ 63
  cache_lt : s.cache.length < 2 ^ 63
  idle : s.flush = .idle → s.cache = []
  rest : ∀ dsize pos, s.flush = .writing dsize pos → dsize = s.cache.length - pos

variable {s s' : LogHistory}

theorem inv_start (needRealWrite intoFile : Bool) (offset : Int64) :
    (start needRealWrite intoFile offset).Inv := by
  refine ⟨⟨rfl, trivial⟩, by simp [start], by simp [start], fun _ ↦ rfl, fun _ _ h ↦ ?_⟩
  simp [start] at h

/-- A line goes to the end of the buffer, behind everything that has been accepted. -/
theorem inv_intoFileBuffer (h : s.Inv) {data : List LogByte} {realtimeWrite : Bool}
    (hs : s.step (.intoFileBuffer data realtimeWrite) = some s') : s'.Inv := by
  simp only [step, FileWriter.intoFileBuffer, Option.bind_eq_bind, Option.pure_def] at hs
  split_ifs at hs with hsize
  swap
  · simp at hs
  obtain rfl := Option.some.inj hs
  refine ⟨⟨?_, h.position⟩, hsize, h.cache_lt, h.idle, h.rest⟩
  calc s.written ++ s.unwritten ++ (s.buffer ++ data ++ [10])
      = s.written ++ s.unwritten ++ s.buffer ++ data ++ [10] := by simp only [List.append_assoc]
    _ = s.appended ++ data ++ [10] := by rw [h.once]

/-- A swap moves the buffer into the empty cache. -/
theorem inv_swapBuffer (h : s.Inv) (hidle : s.flush = .idle) (t : Int) (real : Bool) :
    Inv { s with toFileWriter := { s.swapBuffer t with needRealWrite := real } } := by
  have hcache := h.idle hidle
  have honce := h.once
  simp only [FileWriter.unwritten, hidle, hcache, List.append_nil] at honce
  refine ⟨⟨?_, trivial⟩, by simp [FileWriter.swapBuffer, hcache], h.buffer_lt, ?_, ?_⟩
  · simp [FileWriter.unwritten, FileWriter.swapBuffer, hcache, honce]
  · simp [FileWriter.swapBuffer]
  · simp [FileWriter.swapBuffer]

/-- The buffer becomes the cache, when the cache has been written. -/
theorem inv_switchBuffer (h : s.Inv) {t : Int} (hs : s.step (.switchBuffer t) = some s') :
    s'.Inv := by
  simp only [step] at hs
  split_ifs at hs with hidle
  obtain rfl := Option.some.inj hs
  unfold FileWriter.switchBuffer
  split_ifs
  · exact inv_swapBuffer h hidle t s.needRealWrite
  · exact inv_swapBuffer h hidle t false
  · exact inv_swapBuffer h hidle t s.needRealWrite
  · exact h

/-- The file changes between two flushes, so nothing is under way. -/
theorem inv_switchFile (h : s.Inv) {seekEnd : Option Int64}
    (hs : s.step (.switchFile seekEnd) = some s') : s'.Inv := by
  simp only [step] at hs
  split_ifs at hs with hswitched
  obtain rfl := Option.some.inj hs
  have honce := h.once
  simp only [FileWriter.unwritten, hswitched] at honce
  refine ⟨⟨?_, ?_⟩, by simpa using h.buffer_lt, by simpa using h.cache_lt, by simp, by simp⟩
  · simpa [FileWriter.unwritten] using honce
  · simp [FileWriter.PosInCache]

/-- In the loop, what is left of the cache is as long as `dsize` says. -/
theorem Inv.writing (h : s.Inv) {dsize : Int} {pos : Nat} (hflush : s.flush = .writing dsize pos) :
    dsize = s.cache.length - pos ∧ pos ≤ s.cache.length ∧
      s.written ++ s.cache.drop pos ++ s.buffer = s.appended := by
  have honce := h.once
  have hpos := h.position
  simp only [FileWriter.unwritten, FileWriter.PosInCache, hflush] at honce hpos
  exact ⟨h.rest dsize pos hflush, hpos, honce⟩

/-- What a write does to the file, apart from what it does to the writer. -/
theorem step_write {wsize : Int} (hs : s.step (.write wsize) = some s') :
    ∃ bytes w, s.toFileWriter.write wsize = some (bytes, w) ∧
      s' = { s with toFileWriter := w, written := s.written ++ bytes } := by
  simp only [step, Option.bind_eq_bind, Option.bind_eq_some_iff, Option.pure_def,
    Option.some.injEq] at hs
  obtain ⟨⟨bytes, w⟩, hw, rfl⟩ := hs
  exact ⟨bytes, w, hw, rfl⟩

/-- A write that did not fail puts the next bytes of the cache into the file. -/
theorem inv_write (h : s.Inv) {wsize : Int} (hne : wsize ≠ -1)
    (hs : s.step (.write wsize) = some s') : s'.Inv := by
  obtain ⟨bytes, w, hw, rfl⟩ := step_write hs
  obtain ⟨dsize, pos, hflush, ⟨hd, hlow, hle, hread⟩, rfl, rfl⟩ :=
    FileWriter.write_eq_some_iff.1 hw
  obtain ⟨hrest, hpos, honce⟩ := h.writing hflush
  have hlt := h.cache_lt
  obtain ⟨n, rfl⟩ := Int.eq_ofNat_of_zero_le (show 0 ≤ wsize by omega)
  have hnew : (((pos : Int) + n) % 2 ^ 64).toNat = pos + n := by omega
  have hin : pos + n ≤ s.cache.length := by omega
  refine ⟨⟨?_, ?_⟩, h.buffer_lt, h.cache_lt, by simp, ?_⟩
  · -- The bytes taken are the front of what was left.
    have hsplit : (s.cache.drop pos).take n ++ s.cache.drop (pos + n) = s.cache.drop pos := by
      rw [← List.drop_drop, List.take_append_drop]
    simp only [FileWriter.unwritten, hnew, Int.toNat_natCast]
    rw [← honce, List.append_assoc s.written, hsplit]
  · simpa only [FileWriter.PosInCache, hnew] using hin
  · intro dsize' pos' heq
    simp only [hnew, FlushState.writing.injEq] at heq
    change dsize' = s.cache.length - pos'
    omega

theorem inv_endWrite (h : s.Inv) (hs : s.step .endWrite = some s') : s'.Inv := by
  simp only [step] at hs
  cases hflush : s.flush with
  | writing dsize pos =>
    rw [hflush] at hs
    simp only at hs
    split_ifs at hs with hdone
    obtain rfl := Option.some.inj hs
    obtain ⟨hrest, hpos, honce⟩ := h.writing hflush
    rw [List.drop_eq_nil_of_le (by omega), List.append_nil] at honce
    refine ⟨⟨?_, trivial⟩, h.buffer_lt, by simp [FileWriter.endWrite], fun _ ↦ rfl, ?_⟩
    · simpa [FileWriter.unwritten, FileWriter.endWrite] using honce
    · simp [FileWriter.endWrite]
  | idle | switched => simp [hflush] at hs

/-- A failed call takes the position back over a byte that is written already, or out of the
cache. -/
theorem not_exact_of_write_failed (h : s.Inv) (hs : s.step (.write (-1)) = some s') :
    ¬ s'.Exact := by
  obtain ⟨bytes, w, hw, rfl⟩ := step_write hs
  obtain ⟨dsize, pos, hflush, ⟨hd, -⟩, rfl, rfl⟩ := FileWriter.write_eq_some_iff.1 hw
  obtain ⟨hrest, hpos, honce⟩ := h.writing hflush
  have hlt := h.cache_lt
  rintro ⟨honce', hpos'⟩
  simp only [FileWriter.PosInCache] at hpos'
  simp only [FileWriter.unwritten] at honce'
  have hlen := congrArg List.length (honce'.trans honce.symm)
  simp only [List.length_append, List.length_drop, List.length_take] at hlen
  omega

/-- **One event** keeps the bytes in order exactly when it is not a failed call. -/
theorem step_inv (h : s.Inv) {e : LogEvent} (hne : e ≠ .write (-1)) (hs : s.step e = some s') :
    s'.Inv := by
  cases e with
  | intoFileBuffer data realtimeWrite => exact inv_intoFileBuffer h hs
  | switchBuffer t => exact inv_switchBuffer h hs
  | switchFile seekEnd => exact inv_switchFile h hs
  | write wsize => exact inv_write h (fun hw ↦ hne (by rw [hw])) hs
  | endWrite => exact inv_endWrite h hs

/-- **One event spoils the file if and only if it is a write that failed.** The code adds the -1 to
the position. -/
theorem into_exact_iff (h : s.Inv) {e : LogEvent} (hs : (s.step e).isSome) :
    Into step Exact s e ↔ e ≠ .write (-1) := by
  obtain ⟨s', hs'⟩ := Option.isSome_iff_exists.1 hs
  rw [into_of_eq hs']
  constructor
  · rintro hexact rfl
    exact not_exact_of_write_failed h hs' hexact
  · exact fun hne ↦ (step_inv h hne hs').toExact

/-- **The log writer writes every line once**, over every interleaving, exactly when no call of
`write(2)` fails. -/
theorem exact_iff {needRealWrite intoFile : Bool} {offset : Int64} {es : List LogEvent}
    (hrun : run step (start needRealWrite intoFile offset) es = some s) :
    Throughout step Exact (start needRealWrite intoFile offset) es ↔ ∀ e ∈ es, e ≠ .write (-1) := by
  have hstart := inv_start needRealWrite intoFile offset
  rw [Throughout, and_iff_right hstart.toExact, ← guarded_forall_iff hrun]
  refine guarded_iff (fun s e h hs ↦ into_exact_iff h hs) ?_ hstart (guarded_isSome hrun)
  intro s e s' h hs hexact hs'
  exact step_inv h ((into_exact_iff h hs).1 hexact) hs'

/-- A line, then a flush whose single call takes two bytes and then the last. -/
def sampleEvents : List LogEvent :=
  [.intoFileBuffer [97, 98] false, .switchBuffer 2, .switchFile none, .write 2, .write 1, .endWrite]

/-- A line that is written in two portions. -/
theorem exact_sampleEvents : Throughout step Exact (start false false 0) sampleEvents := by
  obtain ⟨s, hrun⟩ := Option.isSome_iff_exists.1
    (show (run step (start false false 0) sampleEvents).isSome by decide)
  exact (exact_iff hrun).2 (by decide)

/-- After one failed call the position is `2 ^ 64 - 1`. -/
theorem not_exact_of_failed_call :
    ¬ ∀ needRealWrite intoFile offset es s,
      run step (start needRealWrite intoFile offset) es = some s →
      Throughout step Exact (start needRealWrite intoFile offset) es := by
  intro h
  exact absurd (h false false 0
    [.intoFileBuffer [97] false, .switchBuffer 2, .switchFile none, .write (-1)] _ rfl) (by decide)

end LogHistory

end QCLib
