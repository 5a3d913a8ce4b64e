import QCLib.Foundations.Bytes
import QCLib.Foundations.CSemantics
import QCLib.Log.FileWriter
import Mathlib.Data.List.TakeWhile
import Mathlib.Data.Nat.Digits.Defs

/-!
# Log lines

`Logger::Logging` of `logger.cpp`. A line is put together in a buffer of `LOG_BUF_SIZE` bytes by
three calls of `snprintf`, each behind what the one before it *would* have written, and so many
bytes of the buffer go to the log writer. `snprintf` cuts what it writes, but not what it returns,
so the length of the line decides whether the next call still has room and whether the writer reads
beyond the buffer (`lineBounded_iff`).

The last call formats the arguments. What comes of it is a parameter: a text, or an error.

The three calls are one function, `LogLine.print`, which is followed through its cases once: a text
that fits, a text that is cut, a position that lies behind the end already, where the size that is
passed has wrapped around (`handed_iff_of_huge`), and an error. The lengths of the first two texts
are bounded, so it is the module name and the message that decide.

What the writer gets is a prefix of the buffer, as long as the position says. `Handed` asks that
this is the line that was meant, or its beginning, and that nothing was read that had not been
written; the theorem is an equivalence for every message, every module name and every time.
-/

open Bytes CSemantics

namespace QCLib

/-! ### Formatting -/

/-- `LOG_BUF_SIZE`. -/
def logBufSize : ℕ := 1024 * 12

/-- What `printf` makes of a format and its arguments. An error comes with what was written before
it. -/
inductive Formatted where
  | text (bytes : List LogByte)
  | error (value : Int32) (negative : value.toInt < 0) (written : List LogByte)

namespace Formatted

/-- The bytes. -/
def bytes : Formatted → List LogByte
  | text bytes => bytes
  | error _ _ written => written

/-- The value that is returned; a length that is no `int` is an error. -/
def value : Formatted → ℤ
  | text bytes => if bytes.length < 2 ^ 31 then bytes.length else -1
  | error value _ _ => value.toInt

end Formatted

/-- The bytes of a text in ASCII. -/
def asciiBytes (cs : List Char) : List LogByte := cs.map fun c ↦ UInt8.ofNat c.toNat

/-- The digits of a number. -/
def digits (n : ℕ) : List LogByte := asciiBytes (Nat.toDigits 10 n)

/-- `%.<precision>d`. -/
def formatD (precision : ℕ) (i : ℤ) : List LogByte :=
  (if i < 0 then asciiBytes "-".toList else []) ++ (digits i.natAbs).leftpad precision 48

/-- `tm`, with the members that are printed, as `int`s. -/
structure Tm where
  year : Int32
  mon : Int32
  mday : Int32
  hour : Int32
  min : Int32
  sec : Int32
  year_lt : year.toInt + 1900 < 2 ^ 31
  mon_lt : mon.toInt + 1 < 2 ^ 31

/-- `[%.4d-%.2d-%.2d %.2d:%.2d:%.2d]`, up to its end. -/
def timeStart (t : Tm) : List LogByte :=
  asciiBytes "[".toList ++ formatD 4 (t.year.toInt + 1900) ++ asciiBytes "-".toList ++
    formatD 2 (t.mon.toInt + 1) ++ asciiBytes "-".toList ++ formatD 2 t.mday.toInt ++
    asciiBytes " ".toList ++ formatD 2 t.hour.toInt ++ asciiBytes ":".toList ++
    formatD 2 t.min.toInt ++ asciiBytes ":".toList ++ formatD 2 t.sec.toInt

/-- The time, in brackets. -/
def timeText (t : Tm) : List LogByte := timeStart t ++ asciiBytes "]".toList

/-- `LOG_LEVEL_INDEX_STR`. -/
def logLevelIndexStr : List String :=
  ["     ", "DEBUG", "INFO ", "WARN ", "ERROR"] ++ List.replicate 27 ""

/-- `[t-%02u][>%7s:%s<]:`, of the low half of the thread's index and two strings. -/
def infoText (threadIndex : UInt32) (model : List LogByte) (level : String) : List LogByte :=
  asciiBytes "[t-".toList ++ (digits threadIndex.toNat).leftpad 2 48 ++ asciiBytes "][>".toList ++
    (model.takeWhile (· ≠ 0)).leftpad 7 32 ++ asciiBytes ":".toList ++ asciiBytes level.toList ++
    asciiBytes "<]:".toList

/-! ### Printing into the buffer -/

/-- The buffer, the position, and the sizes that were given to `snprintf` so far, before their
conversion to `size_t`. -/
structure LogLine where
  logbuf : List LogByte
  pos : ℤ
  sizes : List ℤ
  deriving DecidableEq, Repr

/-- `pos += snprintf(g_thr_logbuf + pos, LOG_BUF_SIZE - pos, ...)`. -/
def LogLine.print (line : LogLine) (formatted : Formatted) : Option LogLine := do
  let size := logBufSize - line.pos
  let room := (BitVec.ofInt 64 size).toNat
  let written := formatted.bytes.take (room - 1) ++ [0]
  let logbuf ←
    if room = 0 then some line.logbuf
    else memcpy line.logbuf line.pos.toNat written written.length
  let pos ← int32 (line.pos + formatted.value)
  return { logbuf, pos, sizes := line.sizes ++ [size] }

/-- `Logging`, from the time to the call of `IntoFileBuffer`; `false` is a return before it. -/
def formatLine (logbuf : List LogByte) (now : Tm) (threadIndex : UInt32) (model : List LogByte)
    (lvl : Int32) (message : Formatted) : Option (LogLine × Bool) := do
  let line ← LogLine.print ⟨logbuf, 0, []⟩ (.text (timeText now))
  if line.pos < 0 then return (line, false)
  let level ← vecAt logLevelIndexStr lvl.toInt
  let line ← line.print (.text (infoText threadIndex model level))
  if line.pos < 0 then return (line, false)
  let line ← line.print message
  return (line, true)

/-! ### The logger -/

/-- A writer and its `m_level`. -/
structure LevelWriter where
  level : Int32
  writer : FileWriter

/-- `FileWriter::LevelNeedWrite`: the line is important enough for this writer. -/
def LevelWriter.levelNeedWrite (w : LevelWriter) (lvl : Int32) : Bool := lvl ≥ w.level

/-- `Logger`, with its writers. -/
structure Logger where
  processLogWriter : LevelWriter
  moduleWriters : List LogByte → Option LevelWriter

namespace Logger

/-- The writer of a module. -/
def writerOf (log : Logger) (model : List LogByte) : LevelWriter :=
  (log.moduleWriters model).getD log.processLogWriter

/-- The logger with another writer in the place of that of a module. -/
def setWriter (log : Logger) (model : List LogByte) (w : FileWriter) : Logger :=
  match log.moduleWriters model with
  | some old =>
    let new : LevelWriter := { old with writer := w }
    { log with moduleWriters := Function.update log.moduleWriters model (some new) }
  | none => { log with processLogWriter := { log.processLogWriter with writer := w } }

theorem writer_setWriter (log : Logger) (model : List LogByte) (w : FileWriter) :
    ((log.setWriter model w).writerOf model).writer = w := by
  unfold setWriter
  split
  · simp only [writerOf, Function.update_self, Option.getD_some]
  · next hnone => simp only [writerOf, hnone, Option.getD_none]

/-- What both overloads of `Logging` do. -/
def loggingWith (log : Logger) (logbuf : List LogByte) (now : Tm) (threadIndex : UInt32)
    (model : List LogByte) (lvl : Int32) (message : Formatted) :
    Option (Logger × List LogByte) :=
  let writer := log.writerOf model
  if writer.levelNeedWrite lvl then do
    let (line, ready) ← formatLine logbuf now threadIndex model lvl message
    if ready then
      if 0 ≤ line.pos ∧ line.pos ≤ line.logbuf.length then
        let w ← writer.writer.intoFileBuffer (line.logbuf.take line.pos.toNat) false
        return (log.setWriter model w, line.logbuf)
      else none
    else return (log, line.logbuf)
  else some (log, logbuf)

variable {Args : Type} (vsnprintf : List LogByte → Args → Formatted)

/-- `Logging` with its own arguments, which go to `vsnprintf`. -/
def logging (log : Logger) (logbuf : List LogByte) (now : Tm) (threadIndex : UInt32)
    (model : List LogByte) (lvl : Int32) (_realtimewrite : Bool) (fmt : List LogByte)
    (args : Args) : Option (Logger × List LogByte) :=
  log.loggingWith logbuf now threadIndex model lvl (vsnprintf fmt args)

/-- `Logging` with a `va_list`, which does the same with the list that it is given. -/
def loggingVaList (log : Logger) (logbuf : List LogByte) (now : Tm) (threadIndex : UInt32)
    (model : List LogByte) (lvl : Int32) (_realtimewrite : Bool) (fmt : List LogByte)
    (ap : Args) : Option (Logger × List LogByte) :=
  log.loggingWith logbuf now threadIndex model lvl (vsnprintf fmt ap)

end Logger

/-! ### What is required of a line -/

/-- The line as it would be without a limit. -/
def fullLine (now : Tm) (threadIndex : UInt32) (model : List LogByte) (level : String)
    (message : Formatted) : List LogByte :=
  timeText now ++ infoText threadIndex model level ++ message.bytes

/-- What `IntoFileBuffer` gets: a size within the buffer, and bytes with which the whole line
starts. -/
def Handed (line : LogLine) (full : List LogByte) : Prop :=
  0 ≤ line.pos ∧ line.pos ≤ logBufSize ∧ line.logbuf.take line.pos.toNat <+: full

/-- Unless the level is not written: no call of `snprintf` is given a negative size, and
`IntoFileBuffer` gets what it should. -/
def LineBounded (log : Logger) (logbuf : List LogByte) (now : Tm) (threadIndex : UInt32)
    (model : List LogByte) (lvl : Int32) (message : Formatted) : Prop :=
  (log.writerOf model).levelNeedWrite lvl = true →
    ∃ line ready level, formatLine logbuf now threadIndex model lvl message = some (line, ready) ∧
      vecAt logLevelIndexStr lvl.toInt = some level ∧ (∀ size ∈ line.sizes, 0 ≤ size) ∧
      (ready = true → Handed line (fullLine now threadIndex model level message))

variable {logbuf bytes base full : List LogByte} {q : ℕ} {line : LogLine} {formatted : Formatted}

/-! ### One call -/

/-- The buffer after a call at a position in it. -/
def printed (logbuf : List LogByte) (q : ℕ) (bytes : List LogByte) : List LogByte :=
  if q < logBufSize then
    let written := bytes.take (logBufSize - q - 1) ++ [0]
    logbuf.take q ++ written ++ logbuf.drop (q + written.length)
  else logbuf

theorem length_printed (q : ℕ) (bytes : List LogByte) (hlen : logbuf.length = logBufSize) :
    (printed logbuf q bytes).length = logBufSize := by
  rw [printed]
  split_ifs with hq
  · simp only [List.length_append, List.length_take, List.length_drop, List.length_singleton]
    omega
  · exact hlen

/-- What stands in front of the position is not touched by printing. -/
theorem take_printed (hlen : logbuf.length = logBufSize) :
    (printed logbuf q bytes).take q = logbuf.take q := by
  rw [printed]
  split_ifs with hq
  · dsimp only
    rw [List.append_assoc]
    exact List.take_left' (List.length_take_of_le (by omega))
  · rfl

/-- A text that fits is there as a whole, and its end is in the buffer. -/
theorem take_printed_of_lt (hlen : logbuf.length = logBufSize)
    (hfit : q + bytes.length < logBufSize) :
    (printed logbuf q bytes).take (q + bytes.length) = logbuf.take q ++ bytes := by
  have hq : (logbuf.take q).length = q := List.length_take_of_le (by omega)
  have htext : bytes.take (logBufSize - q - 1) = bytes := List.take_of_length_le (by omega)
  rw [printed, if_pos (by omega), htext]
  dsimp only
  rw [← List.append_assoc (logbuf.take q), List.append_assoc]
  exact List.take_left' (by rw [List.length_append, hq])

/-- A text that does not fit loses its last bytes, and a NUL stands in the last place of the buffer.
-/
theorem printed_of_le (hlen : logbuf.length = logBufSize) (hq : q < logBufSize)
    (hcut : logBufSize ≤ q + bytes.length) :
    printed logbuf q bytes = logbuf.take q ++ bytes.take (logBufSize - 1 - q) ++ [0] := by
  have hwritten : (bytes.take (logBufSize - q - 1)).length = logBufSize - q - 1 :=
    List.length_take_of_le (by omega)
  rw [printed, if_pos hq]
  dsimp only
  rw [List.length_append, hwritten, List.length_singleton, List.drop_eq_nil_of_le (by omega),
    List.append_nil, List.append_assoc, show logBufSize - 1 - q = logBufSize - q - 1 by omega]

/-- **A call at a position in the buffer**, or at its end. -/
theorem print_of_le (hlen : line.logbuf.length = logBufSize) (hpos : line.pos = q)
    (hq : q ≤ logBufSize) : line.print formatted =
      (int32 (q + formatted.value)).map fun pos ↦
        ⟨printed line.logbuf q formatted.bytes, pos, line.sizes ++ [(logBufSize - q : ℤ)]⟩ := by
  have hroom : (BitVec.ofInt 64 (logBufSize - q : ℤ)).toNat = logBufSize - q := by
    rw [BitVec.toNat_ofInt, logBufSize] at *
    omega
  rw [LogLine.print, hpos]
  dsimp only
  rw [hroom]
  rcases Nat.lt_or_ge q logBufSize with hlt | hge
  · have hcopy : memcpy line.logbuf q (formatted.bytes.take (logBufSize - q - 1) ++ [0])
        (formatted.bytes.take (logBufSize - q - 1) ++ [0]).length =
          some (printed line.logbuf q formatted.bytes) := by
      rw [memcpy_of_le (by
        rw [List.length_append, List.length_take, List.length_singleton]; omega) (Nat.le_refl _),
        List.take_length, printed, if_pos hlt]
    rw [if_neg (by omega), Int.toNat_natCast, hcopy]
    cases int32 (q + formatted.value) <;> rfl
  · rw [if_pos (by omega), printed, if_neg (by omega)]
    cases int32 (q + formatted.value) <;> rfl

/-- Beyond the end, the size is negative and becomes a huge one. -/
theorem print_of_gt (hlen : line.logbuf.length = logBufSize) (hpos : line.pos = q)
    (hq : logBufSize < q) (hint : q < 2 ^ 31) : line.print formatted = none := by
  have hroom : (BitVec.ofInt 64 (logBufSize - q : ℤ)).toNat ≠ 0 := by
    rw [BitVec.toNat_ofInt, logBufSize] at *
    omega
  have hcopy : ∀ written : List LogByte, memcpy line.logbuf q written written.length = none := by
    intro written
    rw [memcpy, if_neg]
    omega
  rw [LogLine.print, hpos]
  dsimp only
  rw [if_neg hroom, Int.toNat_natCast, hcopy]
  rfl

/-! ### The last call -/

/-- What `snprintf` returns is the length of the text, unless it is negative. -/
theorem Formatted.value_of_nonneg (h : 0 ≤ formatted.value) :
    formatted.value = formatted.bytes.length ∧ formatted.bytes.length < 2 ^ 31 := by
  cases formatted with
  | error value negative written => exact absurd h (not_le.2 negative)
  | text bytes =>
    by_cases hlt : bytes.length < 2 ^ 31
    · exact ⟨if_pos hlt, hlt⟩
    · rw [value, if_neg hlt] at h
      omega

theorem Formatted.le_value (formatted : Formatted) : -2 ^ 31 ≤ formatted.value := by
  cases formatted with
  | error value negative written => exact value.le_toInt
  | text bytes =>
    rw [value]
    split_ifs <;> omega

/-- An error value moves the position back. The line is still handed over as it should be if and
only if the position stays in the buffer and what is in front of it begins the full text. -/
theorem handed_error_iff (hlen : line.logbuf.length = logBufSize) (hpos : line.pos = q)
    (hq : q ≤ logBufSize) (hvalue : formatted.value < 0) :
    (∃ line', line.print formatted = some line' ∧ Handed line' full) ↔
      0 ≤ q + formatted.value ∧ line.logbuf.take (q + formatted.value).toNat <+: full := by
  have hint32 : int32 (q + formatted.value) = some (q + formatted.value) := by
    have hle := formatted.le_value
    rw [int32, if_pos]
    rw [logBufSize] at hq
    omega
  rw [print_of_le hlen hpos hq, hint32]
  simp only [Option.map_some, Option.some.injEq, exists_eq_left', Handed]
  refine and_congr_right fun h ↦ ?_
  have hle : (q + formatted.value).toNat ≤ q := by omega
  have htake : (printed line.logbuf q formatted.bytes).take (q + formatted.value).toNat =
      line.logbuf.take (q + formatted.value).toNat := by
    rw [← Nat.min_eq_left hle, ← List.take_take, take_printed hlen, List.take_take]
  rw [htake]
  exact and_iff_right (by omega)

/-- A text either fits, or just loses its last byte. -/
theorem handed_text_iff (hlen : line.logbuf.length = logBufSize) (hpos : line.pos = q)
    (hq : q < logBufSize) (hvalue : 0 ≤ formatted.value) (hbase : line.logbuf.take q = base) :
    (∃ line', line.print formatted = some line' ∧ Handed line' full) ↔
      (q + formatted.bytes.length < logBufSize ∧ base ++ formatted.bytes <+: full) ∨
        (q + formatted.bytes.length = logBufSize ∧
          base ++ formatted.bytes.take (formatted.bytes.length - 1) ++ [0] <+: full) := by
  obtain ⟨hlength, hint⟩ := Formatted.value_of_nonneg hvalue
  rw [print_of_le hlen hpos hq.le, hlength]
  constructor
  · rintro ⟨line', hline, hnonneg, hle, hprefix⟩
    obtain ⟨pos, hsum, rfl⟩ := Option.map_eq_some_iff.1 hline
    obtain ⟨-, rfl⟩ := int32_eq_some_iff.1 hsum
    dsimp only at hle hprefix
    rw [← Nat.cast_add, Int.toNat_natCast] at hprefix
    -- the callback is handed `pos` bytes, and in a full buffer the last of them is the `NUL`
    rcases Nat.lt_or_ge (q + formatted.bytes.length) logBufSize with hlt | hge
    · rw [take_printed_of_lt hlen hlt, hbase] at hprefix
      exact .inl ⟨hlt, hprefix⟩
    · have heq : q + formatted.bytes.length = logBufSize := by omega
      rw [heq, ← length_printed q formatted.bytes hlen, List.take_length,
        printed_of_le hlen hq hge, hbase,
        show logBufSize - 1 - q = formatted.bytes.length - 1 by omega] at hprefix
      exact .inr ⟨heq, hprefix⟩
  · intro h
    have hsum : int32 (q + formatted.bytes.length) = some (q + formatted.bytes.length : ℤ) := by
      rw [int32, if_pos]
      rw [logBufSize] at hq h
      omega
    refine ⟨_, by rw [hsum, Option.map_some], by positivity, ?_, ?_⟩
    · dsimp only
      omega
    · dsimp only
      rw [← Nat.cast_add, Int.toNat_natCast]
      rcases h with ⟨hlt, hprefix⟩ | ⟨heq, hprefix⟩
      · rwa [take_printed_of_lt hlen hlt, hbase]
      · rwa [heq, ← length_printed q formatted.bytes hlen, List.take_length,
          printed_of_le hlen hq heq.ge, hbase,
          show logBufSize - 1 - q = formatted.bytes.length - 1 by omega]

/-- At the end of the buffer there is room for no byte. -/
theorem handed_end_iff (hlen : line.logbuf.length = logBufSize) (hpos : line.pos = logBufSize)
    (hvalue : 0 ≤ formatted.value) :
    (∃ line', line.print formatted = some line' ∧ Handed line' full) ↔
      formatted.bytes = [] ∧ line.logbuf <+: full := by
  obtain ⟨hlength, hint⟩ := Formatted.value_of_nonneg hvalue
  have hprinted : printed line.logbuf logBufSize formatted.bytes = line.logbuf :=
    if_neg (Nat.lt_irrefl _)
  rw [print_of_le hlen hpos le_rfl, hlength, hprinted]
  constructor
  · rintro ⟨line', hline, hnonneg, hle, hprefix⟩
    obtain ⟨pos, hsum, rfl⟩ := Option.map_eq_some_iff.1 hline
    obtain ⟨-, rfl⟩ := int32_eq_some_iff.1 hsum
    dsimp only at hle hprefix
    have hnil : formatted.bytes = [] := List.length_eq_zero_iff.1 (by omega)
    rw [hnil, List.length_nil, Nat.cast_zero, add_zero, Int.toNat_natCast, ← hlen,
      List.take_length] at hprefix
    exact ⟨hnil, hprefix⟩
  · rintro ⟨hnil, hprefix⟩
    refine ⟨⟨line.logbuf, logBufSize, line.sizes ++ [0]⟩, ?_, by positivity, le_rfl, ?_⟩
    · rw [hnil, List.length_nil, Nat.cast_zero, add_zero, sub_self]
      rfl
    · dsimp only
      rwa [Int.toNat_natCast, ← hlen, List.take_length]

/-! ### The texts -/

/-- A number has no more digits than the power of ten above it. -/
theorem length_digits_le {n e : ℕ} (he : 0 < e) (h : n < 10 ^ e) : (digits n).length ≤ e := by
  rw [digits, asciiBytes, List.length_map]
  exact Nat.toDigits_length 10 n e he h

/-- An `int` takes up at most eleven characters, with its sign. -/
theorem length_formatD_le {precision : ℕ} (i : ℤ) (hprec : precision ≤ 10)
    (hlo : -2 ^ 31 ≤ i) (hhi : i < 2 ^ 31) : (formatD precision i).length ≤ 11 := by
  have hdigits := length_digits_le (n := i.natAbs) (e := 10) (by omega) (by omega)
  have hsign : (if i < 0 then asciiBytes "-".toList else []).length ≤ 1 := by
    split_ifs
    · exact Nat.le_refl 1
    · exact Nat.zero_le 1
  rw [formatD, List.length_append, List.length_leftpad]
  omega

/-- The text of an `Int32` takes up at most eleven characters. -/
theorem length_formatD_toInt_le {precision : ℕ} (hprec : precision ≤ 10) (i : Int32) :
    (formatD precision i.toInt).length ≤ 11 :=
  length_formatD_le _ hprec i.le_toInt i.toInt_lt

/-- The time takes less than 100 bytes, so it always fits into the buffer. -/
theorem length_timeText_lt (t : Tm) : (timeText t).length < 100 := by
  have hsigns : (asciiBytes "[".toList).length = 1 ∧ (asciiBytes "-".toList).length = 1 ∧
      (asciiBytes " ".toList).length = 1 ∧ (asciiBytes ":".toList).length = 1 ∧
        (asciiBytes "]".toList).length = 1 := by
    decide
  have hyear := length_formatD_le (t.year.toInt + 1900) (show 4 ≤ 10 by omega)
    (by have := t.year.le_toInt; omega) t.year_lt
  have hmon := length_formatD_le (t.mon.toInt + 1) (show 2 ≤ 10 by omega)
    (by have := t.mon.le_toInt; omega) t.mon_lt
  have hrest := length_formatD_toInt_le (show 2 ≤ 10 by omega)
  have hmday := hrest t.mday
  have hhour := hrest t.hour
  have hmin := hrest t.min
  have hsec := hrest t.sec
  simp only [timeText, timeStart, List.length_append]
  omega

theorem zero_not_mem_digits (n : ℕ) : (0 : LogByte) ∉ digits n := by
  intro h
  obtain ⟨c, hc, hzero⟩ := List.mem_map.1 h
  have hdigit := Nat.isDigit_of_mem_toDigits (b := 10) (n := n) (by omega) (by omega) hc
  rw [Char.isDigit_iff_toNat] at hdigit
  have htoNat := congrArg UInt8.toNat hzero
  have hbounds : '0'.toNat = 48 ∧ '9'.toNat = 57 := ⟨rfl, rfl⟩
  rw [UInt8.toNat_ofNat', UInt8.toNat_zero] at htoNat
  omega

/-- What comes before the message holds no `NUL`. -/
theorem zero_not_mem_infoText (threadIndex : UInt32) (model : List LogByte) {level : String}
    (hlevel : level ∈ logLevelIndexStr) : (0 : LogByte) ∉ infoText threadIndex model level := by
  have hlevels : ∀ level ∈ logLevelIndexStr, (0 : LogByte) ∉ asciiBytes level.toList := by decide
  have hsigns : (0 : LogByte) ∉ asciiBytes "[t-".toList ∧ (0 : LogByte) ∉ asciiBytes "][>".toList ∧
      (0 : LogByte) ∉ asciiBytes ":".toList ∧ (0 : LogByte) ∉ asciiBytes "<]:".toList := by
    decide
  have hmodel : (0 : LogByte) ∉ model.takeWhile (· ≠ 0) := fun h ↦ by
    simpa using List.mem_takeWhile_imp h
  simp only [infoText, List.leftpad, List.mem_append, List.mem_replicate, hsigns, hmodel,
    hlevels level hlevel, zero_not_mem_digits]
  simp

/-! ### Lines -/

variable {log : Logger} {now : Tm} {threadIndex : UInt32} {model : List LogByte} {lvl : Int32}
  {message : Formatted} {level : String}

/-- When the parts of a line fit: the time, the information and the message together are shorter
than the buffer, or as long, if the message ends in a `NUL`; if there is an error instead of a
message, what comes before it is not longer than the buffer. The information can itself be an error,
if the name of the module is too long for an `int`: then the message is written over the bracket
behind the time. -/
def PartsFit (time info : List LogByte) (message : Formatted) : Prop :=
  if info.length < 2 ^ 31 then
    if message.value < 0 then
      time.length + info.length ≤ logBufSize ∧
        0 ≤ (time.length + info.length : ℤ) + message.value
    else
      time.length + info.length + message.bytes.length < logBufSize ∨
        time.length + info.length + message.bytes.length = logBufSize ∧
          message.bytes.getLast? = some 0
  else
    if message.value < 0 then 0 ≤ (time.length - 1 : ℤ) + message.value
    else
      time.length - 1 + message.bytes.length < logBufSize ∧
        message.bytes <+: asciiBytes "]".toList ++ info

/-- When a line fits: the level is one of the table, and the parts fit. -/
def LineFits (now : Tm) (threadIndex : UInt32) (model : List LogByte) (lvl : Int32)
    (message : Formatted) : Prop :=
  ∃ level, vecAt logLevelIndexStr lvl.toInt = some level ∧
    PartsFit (timeText now) (infoText threadIndex model level) message

/-- A text ends in a NUL exactly if it is one with its last byte put back as NUL. -/
theorem getLast?_eq_zero_iff {bytes : List LogByte} :
    bytes.getLast? = some 0 ↔ bytes ≠ [] ∧ bytes.take (bytes.length - 1) ++ [0] = bytes := by
  rw [← List.dropLast_eq_take, List.getLast?_eq_some_iff]
  constructor
  · rintro ⟨init, rfl⟩
    exact ⟨by simp, by simp⟩
  · rintro ⟨-, h⟩
    exact ⟨_, h.symm⟩

/-- The line behind the time. -/
def timeLine (logbuf time : List LogByte) : LogLine :=
  ⟨printed logbuf 0 time, time.length, [(logBufSize : ℤ)]⟩

/-- The line behind the information, if it ends in the buffer. -/
def infoLine (logbuf time info : List LogByte) : LogLine :=
  ⟨printed (printed logbuf 0 time) time.length info, (time.length + info.length : ℕ),
    [(logBufSize : ℤ), logBufSize - time.length]⟩

section Info

variable {time info : List LogByte}

theorem print_time (hlen : logbuf.length = logBufSize) (htime : time.length < 100) :
    LogLine.print ⟨logbuf, 0, []⟩ (.text time) = some (timeLine logbuf time) := by
  have hvalue : (Formatted.text time).value = time.length := if_pos (by omega)
  rw [print_of_le hlen rfl (Nat.zero_le _), hvalue, int32, if_pos (by omega)]
  simp only [Formatted.bytes, timeLine, Nat.cast_zero, zero_add, sub_zero, List.nil_append,
    Option.map_some]

theorem take_timeLine (hlen : logbuf.length = logBufSize) (htime : time.length < 100) :
    (printed logbuf 0 time).take time.length = time := by
  have hfit : 0 + time.length < logBufSize := by
    rw [logBufSize]
    omega
  have htake := take_printed_of_lt hlen hfit
  rwa [Nat.zero_add, List.take_zero, List.nil_append] at htake

/-- The information about the place comes behind the time, where there is room. -/
theorem print_info (hlen : logbuf.length = logBufSize) (hinfo : info.length < 2 ^ 31)
    (hfit : time.length + info.length ≤ logBufSize) :
    (timeLine logbuf time).print (.text info) = some (infoLine logbuf time info) := by
  have hvalue : (Formatted.text info).value = info.length := if_pos hinfo
  have hsum : int32 (time.length + info.length) = some ((time.length + info.length : ℕ) : ℤ) := by
    rw [int32, if_pos, Nat.cast_add]
    rw [logBufSize] at hfit
    omega
  rw [print_of_le (length_printed 0 time hlen) rfl (by omega), hvalue, hsum, Option.map_some]
  rfl

theorem length_infoLine (hlen : logbuf.length = logBufSize) (time info : List LogByte) :
    (infoLine logbuf time info).logbuf.length = logBufSize :=
  length_printed _ _ (length_printed 0 time hlen)

/-- What is in the buffer behind the time and the information is their start. -/
theorem take_infoLine (hlen : logbuf.length = logBufSize) (htime : time.length < 100) {k : ℕ}
    (hk : k < time.length + info.length) (hfit : time.length + info.length ≤ logBufSize) :
    (infoLine logbuf time info).logbuf.take k = (time ++ info).take k := by
  have hlength := length_printed 0 time hlen
  show (printed (printed logbuf 0 time) time.length info).take k = _
  rcases hfit.lt_or_eq with hlt | heq
  · have htake := take_printed_of_lt hlength hlt
    rw [take_timeLine hlen htime] at htake
    rw [← htake, List.take_take, Nat.min_eq_left hk.le]
  · have hroom : 100 ≤ logBufSize := by decide
    have hcut : (time ++ info.take (logBufSize - 1 - time.length)).length = logBufSize - 1 := by
      rw [List.length_append, List.length_take]
      omega
    rw [printed_of_le hlength (by omega) heq.ge, take_timeLine hlen htime,
      List.take_append_of_le_length (show k ≤ (time ++
        info.take (logBufSize - 1 - time.length)).length by omega),
      List.take_append, List.take_append, List.take_take,
      Nat.min_eq_left (show k - time.length ≤ logBufSize - 1 - time.length by omega)]

/-- If it fills the buffer, its last byte is cut off. -/
theorem logbuf_infoLine (hlen : logbuf.length = logBufSize) (htime : time.length < 100)
    (hfit : time.length + info.length = logBufSize) :
    (infoLine logbuf time info).logbuf = (time ++ info).take (logBufSize - 1) ++ [0] := by
  have hroom : 100 ≤ logBufSize := by decide
  show printed (printed logbuf 0 time) time.length info = _
  rw [printed_of_le (length_printed 0 time hlen) (by omega) hfit.ge, take_timeLine hlen htime,
    List.take_append, List.take_of_length_le (by omega : time.length ≤ _)]

/-- **The third call**, where the information fits. -/
theorem handed_iff_of_le (hlen : logbuf.length = logBufSize) (htime : time.length < 100)
    (hinfo : info ≠ []) (hzero : 0 ∉ info) (hfit : time.length + info.length ≤ logBufSize) :
    (∃ line', (infoLine logbuf time info).print message = some line' ∧
        Handed line' (time ++ info ++ message.bytes)) ↔
      if message.value < 0 then 0 ≤ (time.length + info.length : ℤ) + message.value
      else
        time.length + info.length + message.bytes.length < logBufSize ∨
          time.length + info.length + message.bytes.length = logBufSize ∧
            message.bytes.getLast? = some 0 := by
  have hbuf := length_infoLine hlen time info
  have hpos : (infoLine logbuf time info).pos = (time.length + info.length : ℕ) := rfl
  have hhead : (time ++ info).length = time.length + info.length := List.length_append
  split_ifs with hvalue
  · -- an error takes bytes of the information away
    rw [handed_error_iff hbuf hpos hfit hvalue, Nat.cast_add, and_iff_left_iff_imp]
    intro hnonneg
    rw [take_infoLine hlen htime (by omega) hfit]
    exact (List.take_prefix _ _).trans (List.prefix_append _ _)
  · rw [not_lt] at hvalue
    rcases hfit.lt_or_eq with hlt | heq
    · have hbase : (infoLine logbuf time info).logbuf.take (time.length + info.length) =
          time ++ info := by
        have htake := take_printed_of_lt (length_printed 0 time hlen) hlt
        rwa [take_timeLine hlen htime] at htake
      rw [handed_text_iff hbuf hpos hlt hvalue hbase]
      refine or_congr (and_iff_left (List.prefix_refl _)) (and_congr_right fun hsum ↦ ?_)
      have hne : message.bytes ≠ [] := fun hnil ↦ by
        rw [hnil, List.length_nil] at hsum
        omega
      have hpos := List.length_pos_iff.2 hne
      rw [getLast?_eq_zero_iff, and_iff_right hne, List.append_assoc (time ++ info),
        List.prefix_append_right_inj]
      refine ⟨fun hprefix ↦ hprefix.eq_of_length ?_, fun hend ↦ ⟨[], by rw [List.append_nil, hend]⟩⟩
      rw [List.length_append, List.length_take, List.length_singleton]
      omega
    · -- the last byte of the information is lost, and it is no `NUL`
      rw [handed_end_iff hbuf (by rw [hpos, heq]) hvalue]
      refine iff_of_false ?_ ?_
      · rintro ⟨hnil, hprefix⟩
        rw [hnil, List.append_nil, logbuf_infoLine hlen htime heq] at hprefix
        have hlast := hprefix.eq_of_length (by
          rw [List.length_append, List.length_take, List.length_singleton, hhead, heq]
          decide)
        have hmem : (0 : LogByte) ∈ (time ++ info).getLast? := by
          rw [← hlast, List.getLast?_concat]
          rfl
        rw [List.getLast?_append_of_ne_nil _ hinfo] at hmem
        exact hzero (List.mem_of_getLast? hmem)
      · rintro (hlt | ⟨hsum, hlast⟩)
        · omega
        · have hnil : message.bytes = [] := List.length_eq_zero_iff.1 (by omega)
          rw [hnil] at hlast
          cases hlast

/-- The line behind information that is too long for an `int`. -/
def errorLine (logbuf time info : List LogByte) : LogLine :=
  ⟨printed (printed logbuf 0 time) time.length info, (time.length - 1 : ℕ),
    [(logBufSize : ℤ), logBufSize - time.length]⟩

/-- The buffer is as long as before, also when the text does not fit an `int`. -/
theorem length_errorLine (hlen : logbuf.length = logBufSize) (time info : List LogByte) :
    (errorLine logbuf time info).logbuf.length = logBufSize :=
  length_printed _ _ (length_printed 0 time hlen)

/-- A text that is too long for an `int` makes `snprintf` fail, and the position goes back by one.
-/
theorem print_huge (hlen : logbuf.length = logBufSize) (htime : time.length < 100)
    (hne : time ≠ []) (hinfo : ¬ info.length < 2 ^ 31) :
    (timeLine logbuf time).print (.text info) = some (errorLine logbuf time info) := by
  have hpos := List.length_pos_iff.2 hne
  have hroom : 100 ≤ logBufSize := by decide
  have hvalue : (Formatted.text info).value = -1 := if_neg hinfo
  have hsum : int32 (time.length + -1) = some ((time.length - 1 : ℕ) : ℤ) := by
    rw [int32, if_pos (by omega), Nat.cast_sub hpos]
    rfl
  rw [print_of_le (length_printed 0 time hlen) rfl (by omega), hvalue, hsum, Option.map_some]
  rfl

/-- **The third call**, over the bracket behind the time. -/
theorem handed_iff_of_huge {start : List LogByte} (hlen : logbuf.length = logBufSize)
    (htime : time.length < 100) (hstart : time = start ++ asciiBytes "]".toList)
    (hinfo : ¬ info.length < 2 ^ 31) (hzero : 0 ∉ info) :
    (∃ line', (errorLine logbuf time info).print message = some line' ∧
        Handed line' (time ++ info ++ message.bytes)) ↔
      if message.value < 0 then 0 ≤ (time.length - 1 : ℤ) + message.value
      else
        time.length - 1 + message.bytes.length < logBufSize ∧
          message.bytes <+: asciiBytes "]".toList ++ info := by
  have hroom : 100 ≤ logBufSize := by decide
  have hbound : logBufSize ≤ 2 ^ 31 := by decide
  have hbracket : (asciiBytes "]".toList).length = 1 := by decide
  have hlength : time.length = start.length + 1 := by
    rw [hstart, List.length_append, hbracket]
  have hbuf := length_errorLine hlen time info
  -- the error of `vsnprintf` took the bracket away, and the message is printed in its place
  have hpos : (errorLine logbuf time info).pos = (time.length - 1 : ℕ) := rfl
  have hbase : (errorLine logbuf time info).logbuf.take (time.length - 1) = start := by
    have htake : (errorLine logbuf time info).logbuf.take time.length = time := by
      show (printed (printed logbuf 0 time) time.length info).take time.length = time
      rw [take_printed (length_printed 0 time hlen), take_timeLine hlen htime]
    rw [← Nat.min_eq_left (Nat.sub_le time.length 1), ← List.take_take, htake, hlength,
      Nat.add_sub_cancel, hstart, List.take_left]
  have hfull : time ++ info ++ message.bytes =
      start ++ (asciiBytes "]".toList ++ info ++ message.bytes) := by
    rw [hstart]
    simp only [List.append_assoc]
  have hrest : (asciiBytes "]".toList ++ info).length = info.length + 1 := by
    rw [List.length_append, hbracket, Nat.add_comm]
  rw [hfull]
  split_ifs with hvalue
  · rw [handed_error_iff hbuf hpos (by omega) hvalue, Nat.cast_sub (by omega), Nat.cast_one,
      and_iff_left_iff_imp]
    intro hnonneg
    have hle : ((time.length : ℤ) - 1 + message.value).toNat ≤ time.length - 1 := by omega
    rw [← Nat.min_eq_left hle, ← List.take_take, hbase]
    exact (List.take_prefix _ _).trans (List.prefix_append _ _)
  · rw [not_lt] at hvalue
    rw [handed_text_iff hbuf hpos (by omega) hvalue hbase, List.append_assoc start,
      List.prefix_append_right_inj, List.prefix_append_right_inj]
    constructor
    · rintro (⟨hlt, hprefix⟩ | ⟨hsum, hprefix⟩)
      · exact ⟨hlt, List.prefix_of_prefix_length_le hprefix (List.prefix_append _ _) (by omega)⟩
      · have hend : message.bytes.take (message.bytes.length - 1) ++ [0] <+:
            asciiBytes "]".toList ++ info := by
          refine List.prefix_of_prefix_length_le hprefix (List.prefix_append _ _) ?_
          rw [List.length_append, List.length_take, List.length_singleton]
          omega
        have hmem := hend.subset (List.mem_append_right _ (List.mem_singleton_self 0))
        rcases List.mem_append.1 hmem with hsign | hmem
        · exact absurd hsign (by decide)
        · exact absurd hmem hzero
    · rintro ⟨hlt, hprefix⟩
      exact .inl ⟨hlt, hprefix.trans (List.prefix_append _ _)⟩

end Info

theorem timeText_ne_nil (now : Tm) : timeText now ≠ [] :=
  List.append_ne_nil_of_right_ne_nil _ (by decide)

theorem infoText_ne_nil : infoText threadIndex model level ≠ [] :=
  List.append_ne_nil_of_right_ne_nil _ (by decide)

/-- Behind information that is longer than the buffer there is no third call. -/
theorem print_info_of_gt {time info : List LogByte} (hlen : logbuf.length = logBufSize)
    (htime : time.length < 100) (hinfo : info.length < 2 ^ 31)
    (hlong : logBufSize < time.length + info.length) :
    ((timeLine logbuf time).print (.text info)).bind (fun line ↦
      if line.pos < 0 then some (line, false)
      else (line.print message).bind fun line ↦ some (line, true)) = none := by
  have hroom : 100 ≤ logBufSize := by decide
  have hvalue : (Formatted.text info).value = info.length := if_pos hinfo
  rw [print_of_le (length_printed 0 time hlen) rfl (by omega), hvalue, ← Nat.cast_add, int32]
  split_ifs with hint
  · rw [Option.map_some, Option.bind_some, if_neg (by dsimp only; omega),
      print_of_gt (length_printed _ _ (length_printed 0 time hlen)) rfl hlong (by omega)]
    rfl
  · rfl

/-- The calls after the first one, as a function of what the first one has left. -/
theorem formatLine_eq (hlen : logbuf.length = logBufSize)
    (hlevel : vecAt logLevelIndexStr lvl.toInt = some level) (now : Tm) (threadIndex : UInt32)
    (model : List LogByte) (message : Formatted) :
    formatLine logbuf now threadIndex model lvl message =
      ((timeLine logbuf (timeText now)).print (.text (infoText threadIndex model level))).bind
        fun line ↦
          if line.pos < 0 then some (line, false)
          else (line.print message).bind fun line ↦ some (line, true) := by
  have hpos : ¬ (timeLine logbuf (timeText now)).pos < 0 := not_lt.2 (Int.natCast_nonneg _)
  unfold formatLine
  rw [print_time hlen (length_timeText_lt now), Option.bind_eq_bind, Option.bind_some, if_neg hpos,
    hlevel, Option.bind_eq_bind, Option.bind_some]
  -- as long as it is not opaque, the call is evaluated when the two sides are compared
  generalize (timeLine logbuf (timeText now)).print (.text (infoText threadIndex model level)) =
    result
  rfl

/-- If the second call leaves the position in the buffer, the third decides. -/
theorem bounded_iff_handed (hlen : logbuf.length = logBufSize)
    (hlevel : vecAt logLevelIndexStr lvl.toInt = some level)
    (hline : (timeLine logbuf (timeText now)).print (.text (infoText threadIndex model level)) =
      some line)
    (hbuf : line.logbuf.length = logBufSize) (hpos : line.pos = q) (hq : q ≤ logBufSize)
    (hsizes : ∀ size ∈ line.sizes, 0 ≤ size) :
    (∃ line ready level, formatLine logbuf now threadIndex model lvl message = some (line, ready) ∧
      vecAt logLevelIndexStr lvl.toInt = some level ∧ (∀ size ∈ line.sizes, 0 ≤ size) ∧
      (ready = true → Handed line (fullLine now threadIndex model level message))) ↔
      ∃ line', line.print message = some line' ∧
        Handed line' (fullLine now threadIndex model level message) := by
  have hformat : formatLine logbuf now threadIndex model lvl message =
      (line.print message).bind fun line ↦ some (line, true) := by
    rw [formatLine_eq hlen hlevel, hline, Option.bind_some, if_neg (by omega)]
  rw [hformat]
  constructor
  · rintro ⟨line', ready, level', hresult, hlevel', -, hhanded⟩
    obtain ⟨line'', hprint, hpair⟩ := Option.bind_eq_some_iff.1 hresult
    obtain ⟨rfl, rfl⟩ := Prod.mk.inj (Option.some.inj hpair)
    obtain rfl := Option.some.inj (hlevel.symm.trans hlevel')
    exact ⟨line'', hprint, hhanded rfl⟩
  · rintro ⟨line', hprint, hhanded⟩
    refine ⟨line', true, level, by rw [hprint, Option.bind_some], hlevel, ?_, fun _ ↦ hhanded⟩
    rw [print_of_le hbuf hpos hq] at hprint
    obtain ⟨pos, -, rfl⟩ := Option.map_eq_some_iff.1 hprint
    intro size hsize
    rcases List.mem_append.1 hsize with hold | hnew
    · exact hsizes size hold
    · rw [List.mem_singleton.1 hnew]
      omega

theorem mem_of_vecAt {v : List String} {i : ℤ} (h : vecAt v i = some level) : level ∈ v := by
  rw [vecAt] at h
  split_ifs at h
  exact List.mem_of_getElem? h

/-- **When a log line stays within its buffer**, for every module, level, format and arguments. -/
theorem lineBounded_iff (hlen : logbuf.length = logBufSize) :
    LineBounded log logbuf now threadIndex model lvl message ↔
      ((log.writerOf model).levelNeedWrite lvl = true →
        LineFits now threadIndex model lvl message) := by
  refine imp_congr_right fun _ ↦ ?_
  rcases Option.eq_none_or_eq_some (vecAt logLevelIndexStr lvl.toInt) with hlevel | ⟨level, hlevel⟩
  · refine iff_of_false ?_ ?_
    · rintro ⟨line, ready, level, -, hsome, -⟩
      rw [hlevel] at hsome
      cases hsome
    · rintro ⟨level, hsome, -⟩
      rw [hlevel] at hsome
      cases hsome
  have hfits : LineFits now threadIndex model lvl message ↔
      PartsFit (timeText now) (infoText threadIndex model level) message := by
    constructor
    · rintro ⟨level', hlevel', hparts⟩
      obtain rfl := Option.some.inj (hlevel.symm.trans hlevel')
      exact hparts
    · exact fun hparts ↦ ⟨level, hlevel, hparts⟩
  have htime := length_timeText_lt now
  have hzero := zero_not_mem_infoText threadIndex model (mem_of_vecAt hlevel)
  have hsizes : ∀ size ∈ [(logBufSize : ℤ), logBufSize - (timeText now).length], 0 ≤ size := by
    have hroom : 100 ≤ logBufSize := by decide
    rw [List.forall_mem_cons, List.forall_mem_singleton]
    omega
  rw [hfits, PartsFit]
  by_cases hinfo : (infoText threadIndex model level).length < 2 ^ 31
  · rw [if_pos hinfo]
    rcases Nat.lt_or_ge logBufSize
      ((timeText now).length + (infoText threadIndex model level).length) with hlong | hfit
    · refine iff_of_false ?_ ?_
      · rintro ⟨line, ready, -, hline, -⟩
        rw [formatLine_eq hlen hlevel, print_info_of_gt hlen htime hinfo hlong] at hline
        cases hline
      · split_ifs <;> omega
    · have hline := print_info hlen hinfo hfit
      rw [bounded_iff_handed hlen hlevel hline (length_infoLine hlen _ _) rfl hfit hsizes,
        fullLine,
        handed_iff_of_le hlen htime infoText_ne_nil hzero hfit, and_iff_right hfit]
  · have hline := print_huge hlen htime (timeText_ne_nil now) hinfo
    have hle : (timeText now).length - 1 ≤ logBufSize := by
      have hroom : 100 ≤ logBufSize := by decide
      omega
    rw [if_neg hinfo,
      bounded_iff_handed hlen hlevel hline (length_errorLine hlen _ _) rfl hle hsizes, fullLine,
      handed_iff_of_huge hlen htime rfl hinfo hzero]

/-- A logger without module writers. -/
def sampleLogger : Logger where
  processLogWriter :=
    { level := 0
      writer := { needRealWrite := false, prevWriteTime := 0, buffer := [], cache := [],
                  intoFile := false, offset := 0, flush := .idle } }
  moduleWriters := fun _ ↦ none

/-- Midnight on the first of January 1900, as `localtime` has it. -/
def sampleTm : Tm where
  year := 0
  mon := 0
  mday := 1
  hour := 0
  min := 0
  sec := 0
  year_lt := by decide
  mon_lt := by decide

/-- A short text at a level that may be written. -/
theorem lineBounded_sample : LineBounded sampleLogger (List.replicate logBufSize 0) sampleTm 0 [] 2
    (.text (asciiBytes "hello".toList)) ↔
      ((sampleLogger.writerOf []).levelNeedWrite 2 = true →
        LineFits sampleTm 0 [] 2 (.text (asciiBytes "hello".toList))) :=
  lineBounded_iff List.length_replicate

/-- A message as long as the buffer: the writer is to read beyond its end. -/
theorem not_lineBounded_sample : ¬ LineBounded sampleLogger (List.replicate logBufSize 0) sampleTm 0
    [] 2 (.text (List.replicate logBufSize 97)) := by
  have hvalue : (Formatted.text (List.replicate logBufSize 97)).value = logBufSize := by
    rw [Formatted.value, List.length_replicate, if_pos (by decide)]
  rw [lineBounded_iff List.length_replicate]
  intro h
  obtain ⟨level, -, hparts⟩ := h rfl
  have hinfo : 0 < (infoText 0 [] level).length := List.length_pos_iff.2 infoText_ne_nil
  rw [PartsFit, hvalue, Formatted.bytes, List.length_replicate] at hparts
  split_ifs at hparts <;> omega

/-! ### What the writer gets -/

/-- A part that is printed moves the position by what `snprintf` returns, and the buffer stays as
long as it is. -/
theorem print_eq_some {line' : LogLine} (h : line.print formatted = some line') :
    line'.pos = line.pos + formatted.value ∧ line'.logbuf.length = line.logbuf.length := by
  simp only [LogLine.print, Option.bind_eq_bind] at h
  split_ifs at h with hroom
  · rw [Option.bind_some] at h
    obtain ⟨pos, hsum, hline⟩ := Option.bind_eq_some_iff.1 h
    obtain rfl := Option.some.inj hline
    exact ⟨(int32_eq_some_iff.1 hsum).2, rfl⟩
  · obtain ⟨logbuf', hcopy, hrest⟩ := Option.bind_eq_some_iff.1 h
    obtain ⟨pos, hsum, hline⟩ := Option.bind_eq_some_iff.1 hrest
    obtain rfl := Option.some.inj hline
    exact ⟨(int32_eq_some_iff.1 hsum).2, length_of_memcpy hcopy⟩

/-- The early returns for a full buffer are never taken, because the position stays below its end.
-/
theorem ready_of_formatLine {ready : Bool} (hlen : logbuf.length = logBufSize)
    (hlevel : vecAt logLevelIndexStr lvl.toInt = some level)
    (h : formatLine logbuf now threadIndex model lvl message = some (line, ready)) :
    ready = true ∧ line.logbuf.length = logBufSize := by
  have htime := List.length_pos_iff.2 (timeText_ne_nil now)
  rw [formatLine_eq hlen hlevel] at h
  obtain ⟨line₁, hfirst, hrest⟩ := Option.bind_eq_some_iff.1 h
  obtain ⟨hpos, hlength⟩ := print_eq_some hfirst
  have hnonneg : ¬ line₁.pos < 0 := by
    have hvalue : -1 ≤ (Formatted.text (infoText threadIndex model level)).value := by
      rw [Formatted.value]
      split_ifs <;> omega
    have hstart : (timeLine logbuf (timeText now)).pos = (timeText now).length := rfl
    rw [hpos, hstart]
    omega
  rw [if_neg hnonneg] at hrest
  obtain ⟨line₂, hsecond, hpair⟩ := Option.bind_eq_some_iff.1 hrest
  obtain ⟨rfl, rfl⟩ := Prod.mk.inj (Option.some.inj hpair)
  refine ⟨rfl, ?_⟩
  rw [(print_eq_some hsecond).2, hlength]
  exact length_printed 0 (timeText now) hlen

/-- **A bounded line** reaches the writer of its module as the start of the whole line, and an end
of line. -/
theorem exists_loggingWith (hlen : logbuf.length = logBufSize)
    (h : LineBounded log logbuf now threadIndex model lvl message)
    (hwrite : (log.writerOf model).levelNeedWrite lvl = true)
    (hroom : (log.writerOf model).writer.buffer.length + logBufSize + 1 < 2 ^ 63) :
    ∃ log' logbuf' level bytes,
      log.loggingWith logbuf now threadIndex model lvl message = some (log', logbuf') ∧
        bytes <+: fullLine now threadIndex model level message ∧ bytes.length ≤ logBufSize ∧
          (log'.writerOf model).writer.buffer =
            (log.writerOf model).writer.buffer ++ bytes ++ [10] := by
  obtain ⟨line, ready, level, hline, hlevel, -, hhanded⟩ := h hwrite
  obtain ⟨rfl, hbuf⟩ := ready_of_formatLine hlen hlevel hline
  obtain ⟨hnonneg, hle, hprefix⟩ := hhanded rfl
  have hbytes : (line.logbuf.take line.pos.toNat).length ≤ logBufSize := by
    rw [List.length_take]
    omega
  let w := { (log.writerOf model).writer with
    needRealWrite := false
    buffer := (log.writerOf model).writer.buffer ++ line.logbuf.take line.pos.toNat ++ [10] }
  have hinto : (log.writerOf model).writer.intoFileBuffer (line.logbuf.take line.pos.toNat) false =
      some w := by
    rw [FileWriter.intoFileBuffer]
    refine if_pos ?_
    rw [List.length_append, List.length_append, List.length_singleton]
    omega
  refine ⟨log.setWriter model w, line.logbuf, level, line.logbuf.take line.pos.toNat, ?_, hprefix,
    hbytes, ?_⟩
  · rw [Logger.loggingWith, if_pos hwrite, hline]
    simp only [Option.bind_eq_bind, Option.bind_some, if_true, hbuf]
    rw [if_pos ⟨hnonneg, hle⟩, hinto]
    rfl
  · rw [Logger.writer_setWriter]

end QCLib
