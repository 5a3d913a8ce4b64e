import Mathlib.Tactic
import QCLib.Foundations.Incremental

/-!
# The reader of replies

`redisReader` of hiredis, through which every reply of the Redis server comes. What the server
sends is read in portions, which are appended to `buf`. `redisReaderGetReply` processes items while
it can; an array is an item that contains others, so there is a stack of tasks, with the innermost
array at its end. When the buffer ends in the middle of an item, the tasks stay as they are, and
the next call goes on from there.

Whatever portions the replies come in, they are read as they were sent, and nothing is left behind
(`getReplies_brings`). The items are read by a machine that eats the buffer from the front
(`itemMachine`), so it is enough that one item is read as it was written (`drain_spell`), and that
the machine does not wait for good before the reply has ended (`Machine.eq_nil_of_waits`). Bytes
that are no replies are told from replies at the same place, in whatever portions they come
(`readPortions_seen`).

In the source an element is entered into its array as soon as it is made, and filled later. Here
the elements are kept in the task of the array, and the array is entered into the one that contains
it when it is complete. What a reply is before it is complete, nobody sees.

`none` is what has no defined result: a number that does not fit the type it is read into. The
buffer is taken to be shorter than 2^31 bytes.

The main steps:

* `processItem_takes` — no item takes nothing, so the loop ends;
* `turn_append` — what a turn does is not changed by what arrives later;
* `drain_spell` — one reply is read as it was sent, by recursion on the reply;
* `getReplies_brings` — and so are all of them, in whatever portions they come.
-/

namespace QCLib

/-- `redisReply`, as a tree. The number of the elements is kept apart from them. -/
inductive ReplyObject where
  | string (str : List UInt8)
  | array (elements : ℕ) (element : List ReplyObject)
  | integer (integer : ℤ)
  | nil
  | status (str : List UInt8)
  | error (str : List UInt8)

namespace Hiredis

/-- The types of tasks. -/
inductive ItemType where
  | string
  | array
  | integer
  | status
  | error
  deriving DecidableEq

/-- `redisReadTask`. The type is `none` before it has been read. -/
structure ReadTask where
  type : Option ItemType := none
  elements : ℤ := -1
  idx : ℤ
  obj : List ReplyObject := []

/-- `redisReader`, but for the buffer. The stack begins with the current task, so `ridx` is its
length less one. -/
structure Tasks where
  err : Option String := none
  rstack : List ReadTask := []
  reply : Option ReplyObject := none

/-- `redisReader`: the bytes that have arrived, how far they are read, and the items that have been
begun. -/
structure RedisReader extends Tasks where
  buf : List UInt8 := []
  pos : ℕ := 0

/-- What comes of an attempt to process an item. -/
inductive ItemResult where
  | wait
  | fail (errstr : String) (bytes : ℕ)
  | done (rstack : List ReadTask) (reply : Option ReplyObject) (bytes : ℕ)

/-! ### Lines -/

/-- `seekNewline`: where the first line end begins. -/
def seekNewline : List UInt8 → Option ℕ
  | [] => none
  | c :: s =>
    if c = 0x0d ∧ s.head? = some 0x0a then some 0 else (seekNewline s).map (· + 1)

/-- The digits of `readLongLong`, up to a carriage return; `none` inside is a character that is not
expected. -/
def readDigits : List UInt8 → ℕ → Option (Option ℕ)
  | [], _ => none
  | c :: s, v =>
    if c = 0x0d then some (some v)
    else if 0x30 ≤ c ∧ c ≤ 0x39 then
      let v := v * 10 + (c.toNat - 0x30)
      if v < 2 ^ 63 then readDigits s v else none
    else some none

/-- `readLongLong`: a sign and some digits, up to a carriage return. Anything else in between is
read as -1. -/
def readLongLong (s : List UInt8) : Option ℤ := do
  let (mult, s) : ℤ × List UInt8 :=
    match s with
    | c :: rest => if c = 0x2d then (-1, rest) else if c = 0x2b then (1, rest) else (1, c :: rest)
    | [] => (1, [])
  match ← readDigits s 0 with
  | some v => return mult * v
  | none => return -1

/-! ### Items -/

/-- An `int` as a `size_t`. -/
def sizeT (n : ℤ) : ℕ := (n % 2 ^ 64).toNat

/-- An item is complete: it is entered into the array that it is an element of, and
`moveToNextTask`. -/
def moveToNextTask (cur : ReadTask) (obj : ReplyObject) :
    List ReadTask → List ReadTask × Option ReplyObject
  | [] => ([], some obj)
  | prv :: below =>
    let prv := { prv with obj := prv.obj ++ [obj] }
    if cur.idx = prv.elements - 1 then
      moveToNextTask prv (.array (sizeT prv.elements) prv.obj) below
    else ({ idx := cur.idx + 1 } :: prv :: below, none)

/-- The item is done, with some bytes. -/
def ItemResult.next (cur : ReadTask) (below : List ReadTask) (obj : ReplyObject) (bytes : ℕ) :
    ItemResult :=
  let next := moveToNextTask cur obj below
  .done next.1 next.2 bytes

/-- What `processLineItem` makes of a line. -/
def lineObject (type : ItemType) (p : List UInt8) (len : ℕ) : Option ReplyObject :=
  match type with
  | .integer => (readLongLong p).map .integer
  | .status => some (.status (p.take len))
  | .error | .string | .array => some (.error (p.take len))

/-- `processLineItem`: a status, an error or an integer, when its line is complete. -/
def processLineItem (type : ItemType) (cur : ReadTask) (below : List ReadTask) (p : List UInt8) :
    Option ItemResult :=
  match seekNewline p with
  | none => some .wait
  | some len => (lineObject type p len).map fun obj ↦ .next cur below obj (len + 2)

/-- `processBulkItem`: a string, when all its bytes and the line end behind them have arrived. A
negative length is the reply that is nothing. -/
def processBulkItem (cur : ReadTask) (below : List ReadTask) (p : List UInt8) : Option ItemResult :=
  match seekNewline p with
  | none => some .wait
  | some s => do
    let len ← readLongLong p
    if len < 0 then return .next cur below .nil (s + 2)
    else
      let bytelen := s + 2 + (len.toNat + 2)
      if bytelen ≤ p.length then
        return .next cur below (.string ((p.drop (s + 2)).take len.toNat)) bytelen
      else return .wait

/-- `processMultiBulkItem`: the head of an array, which may lie in seven others. -/
def processMultiBulkItem (cur : ReadTask) (below : List ReadTask) (p : List UInt8) :
    Option ItemResult :=
  if below.length = 8 then
    some (.fail "No support for nested multi bulk replies with depth > 7" 0)
  else
    match seekNewline p with
    | none => some .wait
    | some len => do
      let elements ← readLongLong p
      if elements = -1 then return .next cur below .nil (len + 2)
      else if elements < -(2 ^ 31) ∨ 2 ^ 31 ≤ elements then none
      else if elements > 0 then
        return .done ({ idx := 0 } :: { cur with elements, obj := [] } :: below) none (len + 2)
      else return .next cur below (.array (sizeT elements) []) (len + 2)

/-- The first byte of an item. -/
def itemType (c : UInt8) : Option ItemType :=
  if c = 0x2d then some .error
  else if c = 0x2b then some .status
  else if c = 0x3a then some .integer
  else if c = 0x24 then some .string
  else if c = 0x2a then some .array
  else none

/-- An item of a type that is known. -/
def processTyped (type : ItemType) (cur : ReadTask) (below : List ReadTask) (p : List UInt8) :
    Option ItemResult :=
  match type with
  | .error | .status | .integer => processLineItem type cur below p
  | .string => processBulkItem cur below p
  | .array => processMultiBulkItem cur below p

/-- `chrtos`. -/
def chrtos (c : UInt8) : String :=
  if c = 0x5c then "\"\\\\\""
  else if c = 0x22 then "\"\\\"\""
  else if c = 0x0a then "\"\\n\""
  else if c = 0x0d then "\"\\r\""
  else if c = 0x09 then "\"\\t\""
  else if c = 0x07 then "\"\\a\""
  else if c = 0x08 then "\"\\b\""
  else if 0x20 ≤ c ∧ c < 0x7f then "\"" ++ String.ofList [Char.ofNat c.toNat] ++ "\""
  else "\"\\x" ++
    String.ofList [Nat.digitChar (c.toNat / 16), Nat.digitChar (c.toNat % 16)] ++ "\""

/-- The text of `__redisReaderSetErrorProtocolByte`; `cbuf` has room for seven characters. -/
def protocolByteError (c : UInt8) : String :=
  "Protocol error, got " ++ (chrtos c).take 7 ++ " as reply type byte"

/-- The first half of `processItem`: the type is read. -/
def readType (cur : ReadTask) (below : List ReadTask) : List UInt8 → ItemResult
  | [] => .wait
  | c :: _ =>
    match itemType c with
    | some type => .done ({ cur with type := some type } :: below) none 1
    | none => .fail (protocolByteError c) 1

/-- `processItem`, one of its halves at a time: the type of an item, and the item. -/
def processItem (t : Tasks) (p : List UInt8) : Option ItemResult :=
  match t.rstack with
  | [] => some .wait
  | cur :: below =>
    match cur.type with
    | none => some (readType cur below p)
    | some type => processTyped type cur below p

/-- One turn of the loop of `redisReaderGetReply`, which ends with the stack, when an item waits,
and after an error. -/
def turn : Option Tasks → List UInt8 → Option (Option Tasks × List UInt8)
  | none, _ => none
  | some t, p =>
    if t.err.isSome then none
    else
      match processItem t p with
      | none => some (none, p)
      | some .wait => none
      | some (.fail err bytes) => some (some { t with err }, p.drop bytes)
      | some (.done rstack reply bytes) => some (some { t with rstack, reply }, p.drop bytes)

/-! ### Later arrivals -/

/-- A line that ends in the buffer ends there still when more has arrived, and there is a carriage
return in what the reader looks at. -/
theorem seekNewline_append {p : List UInt8} {n : ℕ} (h : seekNewline p = some n) (c : List UInt8) :
    seekNewline (p ++ c) = some n ∧ n + 2 ≤ p.length ∧ 0x0d ∈ p := by
  induction p generalizing n with
  | nil => cases h
  | cons a s ih =>
    rw [seekNewline] at h
    rw [List.cons_append, seekNewline]
    split at h
    · next hcrlf =>
      obtain ⟨b, s', rfl⟩ : ∃ b s', s = b :: s' := by
        cases s with
        | nil => cases hcrlf.2
        | cons b s' => exact ⟨b, s', rfl⟩
      cases h
      refine ⟨if_pos hcrlf, by simp, ?_⟩
      rw [hcrlf.1]
      exact List.mem_cons_self
    · next hcrlf =>
      obtain ⟨m, hm, rfl⟩ := Option.map_eq_some_iff.1 h
      obtain ⟨hm', hle, hmem⟩ := ih hm
      have hne : s ≠ [] := List.ne_nil_of_mem hmem
      refine ⟨?_, by rw [List.length_cons]; omega, List.mem_cons_of_mem _ hmem⟩
      rw [List.head?_append_of_ne_nil _ hne, if_neg hcrlf, hm']
      rfl

/-- The digits end at the carriage return, so what comes behind it is not looked at. -/
theorem readDigits_append {s : List UInt8} (h : 0x0d ∈ s) (c : List UInt8) (v : ℕ) :
    readDigits (s ++ c) v = readDigits s v := by
  induction s generalizing v with
  | nil => cases h
  | cons a s ih =>
    rw [List.cons_append, readDigits, readDigits]
    by_cases ha : a = 0x0d
    · rw [if_pos ha, if_pos ha]
    · rw [if_neg ha, if_neg ha]
      have hmem := (List.mem_cons.1 h).resolve_left (Ne.symm ha)
      simp only [ih hmem]

/-- **A number is read up to its carriage return.** The source gives it no length, and needs none
once the line is complete. -/
theorem readLongLong_append {p : List UInt8} (h : 0x0d ∈ p) (c : List UInt8) :
    readLongLong (p ++ c) = readLongLong p := by
  cases p with
  | nil => cases h
  | cons a s =>
    rw [List.cons_append, readLongLong, readLongLong]
    by_cases hminus : a = 0x2d
    · subst hminus
      have hmem : 0x0d ∈ s := (List.mem_cons.1 h).resolve_left (by decide)
      simp only [if_pos, readDigits_append hmem]
    · by_cases hplus : a = 0x2b
      · subst hplus
        have hmem : 0x0d ∈ s := (List.mem_cons.1 h).resolve_left (by decide)
        simp only [if_neg hminus, if_pos, readDigits_append hmem]
      · have happend := readDigits_append h c
        rw [List.cons_append] at happend
        simp only [if_neg hminus, if_neg hplus, happend]

section

variable {type : ItemType} {cur : ReadTask} {below : List ReadTask} {p : List UInt8}

/-- An item of one line that does not wait is the same with more behind it. -/
theorem processLineItem_append (h : processLineItem type cur below p ≠ some .wait)
    (c : List UInt8) :
    processLineItem type cur below (p ++ c) = processLineItem type cur below p := by
  unfold processLineItem at h ⊢
  cases hseek : seekNewline p with
  | none =>
    rw [hseek] at h
    exact absurd rfl h
  | some len =>
    obtain ⟨hseek', hle, hmem⟩ := seekNewline_append hseek c
    have htake : (p ++ c).take len = p.take len := List.take_append_of_le_length (by omega)
    rw [hseek']
    simp only [lineObject, readLongLong_append hmem, htake]

/-- A string that does not wait is the same with more behind it: its length, and so many bytes, are
there. -/
theorem processBulkItem_append (h : processBulkItem cur below p ≠ some .wait) (c : List UInt8) :
    processBulkItem cur below (p ++ c) = processBulkItem cur below p := by
  unfold processBulkItem at h ⊢
  cases hseek : seekNewline p with
  | none =>
    rw [hseek] at h
    exact absurd rfl h
  | some n =>
    obtain ⟨hseek', hle, hmem⟩ := seekNewline_append hseek c
    rw [hseek'] at *
    rw [hseek] at h
    simp only [readLongLong_append hmem]
    cases hlen : readLongLong p with
    | none => rfl
    | some len =>
      simp only [hlen, Option.bind_eq_bind, Option.bind_some] at h ⊢
      by_cases hneg : len < 0
      · rw [if_pos hneg, if_pos hneg]
      · rw [if_neg hneg] at h
        rw [if_neg hneg, if_neg hneg]
        -- the whole of the string has arrived, or the item waits
        have hbytes : n + 2 + (len.toNat + 2) ≤ p.length := by
          by_contra hmore
          rw [if_neg hmore] at h
          exact h rfl
        have hdrop : (p ++ c).drop (n + 2) = p.drop (n + 2) ++ c :=
          List.drop_append_of_le_length (by omega)
        rw [if_pos hbytes, if_pos (by rw [List.length_append]; omega), hdrop,
          List.take_append_of_le_length (by rw [List.length_drop]; omega)]

/-- The head of an array that does not wait is the same with more behind it. -/
theorem processMultiBulkItem_append (h : processMultiBulkItem cur below p ≠ some .wait)
    (c : List UInt8) :
    processMultiBulkItem cur below (p ++ c) = processMultiBulkItem cur below p := by
  unfold processMultiBulkItem at h ⊢
  by_cases hdepth : below.length = 8
  · rw [if_pos hdepth, if_pos hdepth]
  · rw [if_neg hdepth] at h ⊢
    rw [if_neg hdepth]
    cases hseek : seekNewline p with
    | none =>
      rw [hseek] at h
      exact absurd rfl h
    | some len =>
      obtain ⟨hseek', hle, hmem⟩ := seekNewline_append hseek c
      rw [hseek']
      simp only [readLongLong_append hmem]

/-- Whatever the type of an item is, it is decided by the bytes that it takes. -/
theorem processTyped_append (h : processTyped type cur below p ≠ some .wait) (c : List UInt8) :
    processTyped type cur below (p ++ c) = processTyped type cur below p := by
  cases type with
  | error => exact @processLineItem_append .error cur below p h c
  | status => exact @processLineItem_append .status cur below p h c
  | integer => exact @processLineItem_append .integer cur below p h c
  | string => exact processBulkItem_append h c
  | array => exact processMultiBulkItem_append h c

/-- An item that does not wait is what it is, whatever comes behind it. -/
theorem processItem_append {t : Tasks} (h : processItem t p ≠ some .wait) (c : List UInt8) :
    processItem t (p ++ c) = processItem t p := by
  unfold processItem at h ⊢
  cases hstack : t.rstack with
  | nil => rfl
  | cons cur below =>
    rw [hstack] at h
    dsimp only at h ⊢
    cases htype : cur.type with
    | none =>
      rw [htype] at h
      cases p with
      | nil => exact absurd rfl h
      | cons a s => rfl
    | some type =>
      rw [htype] at h
      exact processTyped_append h c

/-! ### What an item takes -/

/-- What a result says: an item that is done has taken some bytes, and when the stack is empty there
is a reply. -/
def ItemResult.Takes (p : List UInt8) : ItemResult → Prop
  | .wait => True
  | .fail _ bytes => bytes ≤ p.length
  | .done rstack reply bytes => 0 < bytes ∧ bytes ≤ p.length ∧ (rstack = [] → reply.isSome)

/-- When the stack is empty, the outermost reply has been handed out. -/
theorem moveToNextTask_reply {obj : ReplyObject} (h : (moveToNextTask cur obj below).1 = []) :
    (moveToNextTask cur obj below).2.isSome := by
  induction below generalizing cur obj with
  | nil => rfl
  | cons prv below ih =>
    rw [moveToNextTask] at h ⊢
    dsimp only at h ⊢
    split at h
    · next hlast =>
      rw [if_pos hlast]
      exact ih h
    · cases h

/-- What takes some bytes of the buffer and goes on to the next task is a result as it should be. -/
theorem next_takes {obj : ReplyObject} {bytes : ℕ} (hpos : 0 < bytes) (hle : bytes ≤ p.length) :
    (ItemResult.next cur below obj bytes).Takes p :=
  ⟨hpos, hle, moveToNextTask_reply⟩

theorem processLineItem_takes {x : ItemResult} (h : processLineItem type cur below p = some x) :
    x.Takes p := by
  unfold processLineItem at h
  cases hseek : seekNewline p with
  | none =>
    rw [hseek] at h
    cases h
    trivial
  | some len =>
    obtain ⟨-, hle, -⟩ := seekNewline_append hseek []
    rw [hseek] at h
    obtain ⟨obj, -, rfl⟩ := Option.map_eq_some_iff.1 h
    exact next_takes (by omega) hle

/-- A string takes its header, its bytes and the line end behind them. -/
theorem processBulkItem_takes {x : ItemResult} (h : processBulkItem cur below p = some x) :
    x.Takes p := by
  unfold processBulkItem at h
  cases hseek : seekNewline p with
  | none =>
    rw [hseek] at h
    cases h
    trivial
  | some n =>
    obtain ⟨-, hle, -⟩ := seekNewline_append hseek []
    rw [hseek] at h
    obtain ⟨len, -, hx⟩ := Option.bind_eq_some_iff.1 h
    by_cases hneg : len < 0
    · rw [if_pos hneg] at hx
      cases hx
      exact next_takes (by omega) hle
    · rw [if_neg hneg] at hx
      by_cases hbytes : n + 2 + (len.toNat + 2) ≤ p.length
      · rw [if_pos hbytes] at hx
        cases hx
        exact next_takes (by omega) hbytes
      · rw [if_neg hbytes] at hx
        cases hx
        trivial

/-- An array without elements takes its header, and so does the head of one that has some. -/
theorem processMultiBulkItem_takes {x : ItemResult}
    (h : processMultiBulkItem cur below p = some x) : x.Takes p := by
  unfold processMultiBulkItem at h
  by_cases hdepth : below.length = 8
  · rw [if_pos hdepth] at h
    cases h
    exact Nat.zero_le _
  · rw [if_neg hdepth] at h
    cases hseek : seekNewline p with
    | none =>
      rw [hseek] at h
      cases h
      trivial
    | some len =>
      obtain ⟨-, hle, -⟩ := seekNewline_append hseek []
      rw [hseek] at h
      obtain ⟨elements, -, hx⟩ := Option.bind_eq_some_iff.1 h
      split_ifs at hx
      · cases hx
        exact next_takes (by omega) hle
      · cases hx
        exact ⟨by omega, hle, fun hnil ↦ by cases hnil⟩
      · cases hx
        exact next_takes (by omega) hle

/-- **No item takes nothing**, so the loop of `redisReaderGetReply` ends. -/
theorem processItem_takes {t : Tasks} {x : ItemResult} (h : processItem t p = some x) :
    x.Takes p := by
  unfold processItem at h
  split at h
  · cases h
    trivial
  · next cur below _ =>
    split at h
    · cases h
      cases p with
      | nil => trivial
      | cons a s =>
        unfold readType
        dsimp only
        split
        · exact ⟨Nat.one_pos, by simp, fun hnil ↦ by cases hnil⟩
        · show 1 ≤ _
          simp
    · next type _ =>
      cases type with
      | error => exact @processLineItem_takes .error cur below p x h
      | status => exact @processLineItem_takes .status cur below p x h
      | integer => exact @processLineItem_takes .integer cur below p x h
      | string => exact processBulkItem_takes h
      | array => exact processMultiBulkItem_takes h

end

/-! ### The machine -/

/-- What a turn does, case by case: it waits, it fails, or it takes the bytes of one item and goes
on to the next task. -/
theorem turn_cases {t t' : Option Tasks} {p r : List UInt8} (h : turn t p = some (t', r)) :
    ∃ u, t = some u ∧ u.err = none ∧
      ((processItem u p = none ∧ t' = none ∧ r = p) ∨
        (∃ err bytes, processItem u p = some (.fail err bytes) ∧
          t' = some { u with err := some err } ∧ r = p.drop bytes) ∨
        ∃ rstack reply bytes, processItem u p = some (.done rstack reply bytes) ∧
          t' = some { u with rstack, reply } ∧ r = p.drop bytes) := by
  cases t with
  | none => cases h
  | some u =>
    rw [turn] at h
    split at h
    · cases h
    · next herr =>
      refine ⟨u, rfl, by simpa using herr, ?_⟩
      split at h
      · next hitem =>
        cases h
        exact .inl ⟨hitem, rfl, rfl⟩
      · cases h
      · next err bytes hitem =>
        cases h
        exact .inr (.inl ⟨err, bytes, hitem, rfl, rfl⟩)
      · next rstack reply bytes hitem =>
        cases h
        exact .inr (.inr ⟨rstack, reply, bytes, hitem, rfl, rfl⟩)

/-- A turn that can be taken is the same with more behind it: what the machine of this module needs
for `Machine.drain_append`. -/
theorem turn_append (t : Option Tasks) (p c : List UInt8) (t' : Option Tasks) (r : List UInt8)
    (h : turn t p = some (t', r)) : turn t (p ++ c) = some (t', r ++ c) := by
  obtain ⟨u, rfl, herr, hcases⟩ := turn_cases h
  -- no case of a turn is an item that waits
  have happend : processItem u p ≠ some .wait → processItem u (p ++ c) = processItem u p :=
    fun hwait ↦ processItem_append hwait c
  rw [turn, if_neg (by rw [herr]; simp)]
  rcases hcases with ⟨hitem, ht, hr⟩ | ⟨err, bytes, hitem, ht, hr⟩ |
    ⟨rstack, reply, bytes, hitem, ht, hr⟩
  · rw [happend (by rw [hitem]; simp), hitem, ht, hr]
  · have hle : bytes ≤ p.length := processItem_takes hitem
    rw [happend (by rw [hitem]; simp), hitem, ht, hr, ← List.drop_append_of_le_length hle]
  · obtain ⟨-, hle, -⟩ : ItemResult.Takes p (.done rstack reply bytes) := processItem_takes hitem
    rw [happend (by rw [hitem]; simp), hitem, ht, hr, ← List.drop_append_of_le_length hle]

/-- What is left to be done: bytes, and an error that has not been met. -/
def turnSize : Option Tasks → List UInt8 → ℕ
  | none, p => 2 * p.length
  | some t, p => 2 * p.length + if t.err.isSome then 0 else 1

theorem turnSize_lt (t : Option Tasks) (p : List UInt8) (t' : Option Tasks) (r : List UInt8)
    (h : turn t p = some (t', r)) : turnSize t' r < turnSize t p := by
  obtain ⟨u, rfl, herr, ⟨-, rfl, rfl⟩ | ⟨err, bytes, hitem, rfl, rfl⟩ |
    ⟨rstack, reply, bytes, hitem, rfl, rfl⟩⟩ := turn_cases h
  · simp [turnSize, herr]
  · have hle : (p.drop bytes).length ≤ p.length := by simp
    simp only [turnSize, herr, Option.isSome_some, Option.isSome_none, if_true, Bool.false_eq_true,
      if_false]
    omega
  · obtain ⟨hpos, hle, -⟩ : ItemResult.Takes p (.done rstack reply bytes) := processItem_takes hitem
    simp only [turnSize, herr, List.length_drop]
    omega

/-- The loop of `redisReaderGetReply`, as a machine. -/
def itemMachine : Machine (Option Tasks) UInt8 where
  step := turn
  size := turnSize
  step_append := turn_append
  size_lt := turnSize_lt

/-! ### What a server sends -/

/-- A line, with its line end. -/
def line (s : List UInt8) : List UInt8 := s ++ [0x0d, 0x0a]

/-- The digits of a number. -/
def decimal (n : ℕ) : List UInt8 := (Nat.toDigits 10 n).map fun c ↦ UInt8.ofNat c.toNat

/-- An integer, as it is sent. -/
def signedDecimal (n : ℤ) : List UInt8 :=
  if n < 0 then 0x2d :: decimal n.natAbs else decimal n.natAbs

mutual

/-- What a server sends for a reply, by recursion on the reply. -/
def spell : ReplyObject → List UInt8
  | .string str => 0x24 :: (line (decimal str.length) ++ line str)
  | .array _ element => 0x2a :: (line (decimal element.length) ++ spellAll element)
  | .integer n => 0x3a :: line (signedDecimal n)
  | .nil => 0x24 :: line [0x2d, 0x31]
  | .status str => 0x2b :: line str
  | .error str => 0x2d :: line str

/-- What is sent for some replies, one behind the other. -/
def spellAll : List ReplyObject → List UInt8
  | [] => []
  | x :: xs => spell x ++ spellAll xs

end

mutual

/-- A reply that can be sent and read, inside so many arrays: its numbers fit, there is no end of a
line in its lines, and its arrays are not nested too deeply. -/
def Readable : ReplyObject → ℕ → Prop
  | .string str, _ => str.length < 2 ^ 31
  | .array elements element, depth =>
    depth < 8 ∧ elements = element.length ∧ element.length < 2 ^ 31 ∧
      ReadableAll element (depth + 1)
  | .integer n, _ => n.natAbs < 2 ^ 63
  | .nil, _ => True
  | .status str, _ => 0x0d ∉ str
  | .error str, _ => 0x0d ∉ str

def ReadableAll : List ReplyObject → ℕ → Prop
  | [], _ => True
  | x :: xs, depth => Readable x depth ∧ ReadableAll xs depth

end

/-! ### Lines and numbers are read as they were written -/

/-- The end of a line that has no carriage return in it is found where it was written. -/
theorem seekNewline_line {s : List UInt8} (h : 0x0d ∉ s) (rest : List UInt8) :
    seekNewline (line s ++ rest) = some s.length := by
  induction s with
  | nil => rfl
  | cons c s ih =>
    have hc : c ≠ 0x0d := fun hc ↦ h (hc ▸ List.mem_cons_self)
    show seekNewline (c :: (line s ++ rest)) = _
    rw [seekNewline, if_neg (fun hcrlf ↦ hc hcrlf.1), ih fun hmem ↦ h (List.mem_cons_of_mem _ hmem)]
    rfl

/-- The character of a digit, as a number. -/
theorem digitChar_toNat {d : ℕ} (h : d < 10) : (Nat.digitChar d).toNat = 0x30 + d := by
  interval_cases d <;> rfl

theorem decimal_of_lt {n : ℕ} (h : n < 10) : decimal n = [UInt8.ofNat (0x30 + n)] := by
  rw [decimal, Nat.toDigits_of_lt_base h, List.map_singleton, digitChar_toNat h]

/-- A larger one is the digits of its tenth, and a digit more. -/
theorem decimal_of_le {n : ℕ} (h : 10 ≤ n) :
    decimal n = decimal (n / 10) ++ [UInt8.ofNat (0x30 + n % 10)] := by
  rw [decimal, Nat.toDigits_of_base_le (by decide) h, List.map_append, List.map_singleton,
    digitChar_toNat (Nat.mod_lt n (by decide))]
  rfl

/-- A digit is no carriage return, and is read as the number that it stands for. -/
theorem digit_bounds {d : ℕ} (h : d < 10) : UInt8.ofNat (0x30 + d) ≠ 0x0d ∧
    (0x30 ≤ UInt8.ofNat (0x30 + d) ∧ UInt8.ofNat (0x30 + d) ≤ 0x39) ∧
      (UInt8.ofNat (0x30 + d)).toNat - 0x30 = d := by
  interval_cases d <;> decide

theorem readDigits_digit {d v : ℕ} (hd : d < 10) (hv : v * 10 + d < 2 ^ 63) (s : List UInt8) :
    readDigits (UInt8.ofNat (0x30 + d) :: s) v = readDigits s (v * 10 + d) := by
  obtain ⟨hend, hdigit, hvalue⟩ := digit_bounds hd
  rw [readDigits, if_neg hend, if_pos hdigit, hvalue]
  exact if_pos hv

/-- The characters of a number are those of digits. -/
theorem mem_decimal {n : ℕ} {c : UInt8} (h : c ∈ decimal n) :
    ∃ d < 10, c = UInt8.ofNat (0x30 + d) := by
  induction n using Nat.strongRecOn with
  | ind n ih =>
    by_cases hn : n < 10
    · rw [decimal_of_lt hn, List.mem_singleton] at h
      exact ⟨n, hn, h⟩
    · rw [decimal_of_le (Nat.le_of_not_lt hn), List.mem_append, List.mem_singleton] at h
      rcases h with h | h
      · exact ih (n / 10) (Nat.div_lt_self (by omega) (by decide)) h
      · exact ⟨n % 10, Nat.mod_lt n (by decide), h⟩

/-- There is nothing but digits in the text of a number: no sign, no carriage return. -/
theorem notMem_decimal {n : ℕ} {c : UInt8} (h : c < 0x30) : c ∉ decimal n := by
  intro hmem
  obtain ⟨d, hd, rfl⟩ := mem_decimal hmem
  revert h
  interval_cases d <;> decide

/-- **The digits of a number** are read as the number. -/
theorem readDigits_decimal {n : ℕ} (h : n < 2 ^ 63) (s : List UInt8) :
    readDigits (decimal n ++ s) 0 = readDigits s n := by
  induction n using Nat.strongRecOn generalizing s with
  | ind n ih =>
    by_cases hn : n < 10
    · rw [decimal_of_lt hn, List.singleton_append, readDigits_digit hn (by omega), Nat.zero_mul,
        Nat.zero_add]
    · have hdiv := Nat.div_add_mod n 10
      rw [decimal_of_le (Nat.le_of_not_lt hn), List.append_assoc,
        ih (n / 10) (Nat.div_lt_self (by omega) (by decide)) (by omega), List.singleton_append,
        readDigits_digit (Nat.mod_lt n (by decide)) (by omega)]
      congr 1
      omega

/-- **A number is read as it was written**, with its sign, unless it is -2^63, which the reader
negates before it has it. -/
theorem readLongLong_signedDecimal {n : ℤ} (h : n.natAbs < 2 ^ 63) (rest : List UInt8) :
    readLongLong (line (signedDecimal n) ++ rest) = some n := by
  have hread : readDigits (decimal n.natAbs ++ ([0x0d, 0x0a] ++ rest)) 0 =
      some (some n.natAbs) := by
    rw [readDigits_decimal h]
    rfl
  rw [line, signedDecimal, List.append_assoc]
  split
  · rw [List.cons_append, readLongLong]
    simp only [if_pos, hread]
    show some (-1 * (n.natAbs : ℤ)) = some n
    congr 1
    omega
  · cases hdecimal : decimal n.natAbs with
    | nil => exact absurd (List.map_eq_nil_iff.1 hdecimal) Nat.toDigits_ne_nil
    | cons c t =>
      have hc : c ∈ decimal n.natAbs := by
        rw [hdecimal]
        exact List.mem_cons_self
      have hminus : c ≠ 0x2d := fun h ↦ notMem_decimal (by decide) (h ▸ hc)
      have hplus : c ≠ 0x2b := fun h ↦ notMem_decimal (by decide) (h ▸ hc)
      rw [hdecimal, List.cons_append] at hread
      rw [List.cons_append, readLongLong]
      simp only [if_neg hminus, if_neg hplus, hread]
      show some (1 * (n.natAbs : ℤ)) = some n
      congr 1
      omega

theorem notMem_signedDecimal (n : ℤ) : (0x0d : UInt8) ∉ signedDecimal n := by
  rw [signedDecimal]
  split
  · exact List.not_mem_cons_of_ne_of_not_mem (by decide) (notMem_decimal (by decide))
  · exact notMem_decimal (by decide)

theorem readLongLong_decimal {n : ℕ} (h : n < 2 ^ 63) (rest : List UInt8) :
    readLongLong (line (decimal n) ++ rest) = some (n : ℤ) :=
  readLongLong_signedDecimal (n := n) h rest

/-! ### Items are read as they were written -/

/-- The tasks after an item. -/
def afterItem (cur : ReadTask) (below : List ReadTask) (x : ReplyObject) : Option Tasks :=
  let next := moveToNextTask cur x below
  some { rstack := next.1, reply := next.2 }

/-- Of the current task, only the index matters to what comes next. -/
theorem afterItem_congr {cur cur' : ReadTask} (h : cur.idx = cur'.idx) (below : List ReadTask)
    (x : ReplyObject) : afterItem cur below x = afterItem cur' below x := by
  unfold afterItem
  cases below with
  | nil => rfl
  | cons prv below => rw [moveToNextTask, moveToNextTask, h]

/-- The turn for an item that is done takes its bytes away and goes on with the tasks that are left.
-/
theorem turn_of_done {t : Tasks} {p : List UInt8} {rstack : List ReadTask}
    {reply : Option ReplyObject} {bytes : ℕ} (herr : t.err = none)
    (hitem : processItem t p = some (.done rstack reply bytes)) :
    turn (some t) p = some (some { t with rstack, reply }, p.drop bytes) := by
  rw [turn, if_neg (by rw [herr]; simp), hitem]

/-- An item that is complete is taken off the buffer, and the loop goes on behind it. -/
theorem drain_of_done {t : Tasks} {p : List UInt8} {rstack : List ReadTask}
    {reply : Option ReplyObject} {bytes : ℕ} (herr : t.err = none)
    (hitem : processItem t p = some (.done rstack reply bytes)) :
    itemMachine.drain (some t) p =
      itemMachine.drain (some { t with rstack, reply }) (p.drop bytes) :=
  Machine.drain_of_step (M := itemMachine) (turn_of_done herr hitem)

/-- The first byte of an item says what type it is, and is taken by itself. -/
theorem drain_type {type : ItemType} {c : UInt8} (htype : itemType c = some type) (idx : ℤ)
    (below : List ReadTask) (p : List UInt8) :
    itemMachine.drain (some { rstack := { idx } :: below }) (c :: p) =
      itemMachine.drain (some { rstack := { type := some type, idx } :: below }) p := by
  have hitem : processItem { rstack := { idx } :: below } (c :: p) =
      some (.done ({ type := some type, idx } :: below) none 1) := by
    show some (readType { idx } below (c :: p)) = _
    rw [readType, htype]
  exact drain_of_done rfl hitem

/-- An item that has no items inside it is read in two turns: its type, and then the rest of it. -/
theorem drain_item {type : ItemType} {idx : ℤ} {below : List ReadTask} {p : List UInt8}
    {x : ReplyObject} {bytes : ℕ}
    (hitem : processTyped type { type := some type, idx } below p =
      some (.next { type := some type, idx } below x bytes)) :
    itemMachine.drain (some { rstack := { type := some type, idx } :: below }) p =
      itemMachine.drain (afterItem { idx } below x) (p.drop bytes) := by
  have hafter : afterItem { idx } below x = afterItem { type := some type, idx } below x :=
    @afterItem_congr { idx } { type := some type, idx } rfl below x
  rw [hafter]
  exact drain_of_done (t := { rstack := { type := some type, idx } :: below }) rfl hitem

/-- Behind a line and its line end comes the rest. -/
theorem drop_line (s rest : List UInt8) : (line s ++ rest).drop (s.length + 2) = rest :=
  List.drop_left' (by rw [line, List.length_append]; rfl)

/-- **An item of one line** is read, and the machine goes on behind it with the next task. -/
theorem drain_line {type : ItemType} {s : List UInt8} {x : ReplyObject} (hline : 0x0d ∉ s)
    (htype : processTyped type = processLineItem type) (idx : ℤ) (below : List ReadTask)
    (rest : List UInt8) (hx : lineObject type (line s ++ rest) s.length = some x) :
    itemMachine.drain (some { rstack := { type := some type, idx } :: below }) (line s ++ rest) =
      itemMachine.drain (afterItem { idx } below x) rest := by
  have hitem : processTyped type { type := some type, idx } below (line s ++ rest) =
      some (.next { type := some type, idx } below x (s.length + 2)) := by
    rw [htype, processLineItem, seekNewline_line hline]
    dsimp only
    rw [hx]
    rfl
  rw [drain_item hitem, drop_line]

theorem drain_nil (idx : ℤ) (below : List ReadTask) (rest : List UInt8) :
    itemMachine.drain (some { rstack := { type := some .string, idx } :: below })
        (line [0x2d, 0x31] ++ rest) =
      itemMachine.drain (afterItem { idx } below .nil) rest := by
  have hitem : processTyped .string { type := some .string, idx } below
      (line [0x2d, 0x31] ++ rest) =
      some (.next { type := some .string, idx } below .nil 4) := rfl
  rw [drain_item hitem]
  rfl

/-- **A string** is read with all its bytes, line ends among them. -/
theorem drain_string {str : List UInt8} (h : str.length < 2 ^ 31) (idx : ℤ)
    (below : List ReadTask) (rest : List UInt8) :
    itemMachine.drain (some { rstack := { type := some .string, idx } :: below })
        (line (decimal str.length) ++ (line str ++ rest)) =
      itemMachine.drain (afterItem { idx } below (.string str)) rest := by
  have hdrop := drop_line (decimal str.length) (line str ++ rest)
  have hbytes : (decimal str.length).length + 2 + (str.length + 2) ≤
      (line (decimal str.length) ++ (line str ++ rest)).length := by
    simp only [line, List.length_append, List.length_cons, List.length_nil]
    omega
  have hitem : processTyped .string { type := some .string, idx } below
      (line (decimal str.length) ++ (line str ++ rest)) =
      some (.next { type := some .string, idx } below (.string str)
        ((decimal str.length).length + 2 + (str.length + 2))) := by
    show processBulkItem _ _ _ = _
    rw [processBulkItem, seekNewline_line (notMem_decimal (by decide)),
      readLongLong_decimal (h.trans (by decide))]
    dsimp only [Option.bind_eq_bind, Option.bind_some]
    rw [if_neg (by omega), Int.toNat_natCast, if_pos hbytes, hdrop, line, List.append_assoc,
      List.take_left]
    rfl
  rw [drain_item hitem, ← List.drop_drop, hdrop, drop_line]

/-- An array with elements is begun: its head is taken, and a task for its first element is put on
the stack. -/
theorem drain_elements {n : ℕ} (hpos : 0 < n) (hn : n < 2 ^ 31) {below : List ReadTask}
    (hdepth : below.length < 8) (idx : ℤ) (rest : List UInt8) :
    itemMachine.drain (some { rstack := { type := some .array, idx } :: below })
        (line (decimal n) ++ rest) =
      itemMachine.drain (some { rstack := { idx := 0 } ::
        { type := some .array, elements := n, idx } :: below }) rest := by
  have hitem : processItem { rstack := { type := some .array, idx } :: below }
      (line (decimal n) ++ rest) =
      some (.done ({ idx := 0 } :: { type := some .array, elements := n, idx } :: below) none
        ((decimal n).length + 2)) := by
    show processMultiBulkItem _ _ _ = _
    rw [processMultiBulkItem, if_neg (by omega), seekNewline_line (notMem_decimal (by decide)),
      readLongLong_decimal (hn.trans (by decide))]
    dsimp only [Option.bind_eq_bind, Option.bind_some]
    rw [if_neg (by omega), if_neg (by omega), if_pos (by omega)]
    rfl
  rw [drain_of_done rfl hitem, drop_line]

/-- **An array without elements** is complete with its header. -/
theorem drain_noElements {below : List ReadTask} (hdepth : below.length < 8) (idx : ℤ)
    (rest : List UInt8) :
    itemMachine.drain (some { rstack := { type := some .array, idx } :: below })
        (line (decimal 0) ++ rest) =
      itemMachine.drain (afterItem { idx } below (.array 0 [])) rest := by
  have hitem : processTyped .array { type := some .array, idx } below
      (line (decimal 0) ++ rest) =
      some (.next { type := some .array, idx } below (.array 0 []) ((decimal 0).length + 2)) := by
    rw [processTyped, processMultiBulkItem, if_neg (by omega),
      seekNewline_line (notMem_decimal (by decide)), readLongLong_decimal (by decide)]
    rfl
  rw [drain_item hitem, drop_line]

/-- The task of an array, some of whose elements are there. -/
def arrayTask (idx : ℤ) (n : ℕ) (obj : List ReplyObject) : ReadTask :=
  { type := some .array, elements := n, idx, obj }

/-- A number of elements that fits an `int` is not changed by the conversion to `size_t`. -/
theorem sizeT_natCast {n : ℕ} (h : n < 2 ^ 31) : sizeT n = n := by
  rw [sizeT]
  omega

/-- After an element that is not the last one, the array's task goes on to the next. -/
theorem afterItem_more {i n : ℕ} (h : i + 1 < n) (idx : ℤ) (obj : List ReplyObject)
    (below : List ReadTask) (x : ReplyObject) :
    afterItem { idx := i } (arrayTask idx n obj :: below) x =
      some { rstack := { idx := (i + 1 : ℕ) } :: arrayTask idx n (obj ++ [x]) :: below } := by
  have hne : ¬ (i : ℤ) = (n : ℤ) - 1 := by omega
  have hmove : moveToNextTask { idx := i } x (arrayTask idx n obj :: below) =
      ({ idx := (i : ℤ) + 1 } :: arrayTask idx n (obj ++ [x]) :: below, none) := by
    rw [moveToNextTask]
    exact if_neg hne
  rw [afterItem, hmove]
  rfl

/-- After the last element, the array's task is done, and the array itself is an item that has been
read. -/
theorem afterItem_last {i n : ℕ} (h : i + 1 = n) (hn : n < 2 ^ 31) (idx : ℤ)
    (obj : List ReplyObject) (below : List ReadTask) (x : ReplyObject) :
    afterItem { idx := i } (arrayTask idx n obj :: below) x =
      afterItem { idx } below (.array n (obj ++ [x])) := by
  have heq : (i : ℤ) = (n : ℤ) - 1 := by omega
  have hmove : moveToNextTask { idx := i } x (arrayTask idx n obj :: below) =
      moveToNextTask (arrayTask idx n (obj ++ [x])) (.array (sizeT n) (obj ++ [x])) below := by
    rw [moveToNextTask]
    exact if_pos heq
  rw [afterItem, hmove, sizeT_natCast hn]
  exact @afterItem_congr (arrayTask idx n (obj ++ [x])) { idx } rfl below _

mutual

/-- **An item is read as it was written**, whatever comes behind it, and at whatever place in
whatever arrays. -/
theorem drain_spell (x : ReplyObject) (idx : ℤ) (below : List ReadTask) (rest : List UInt8)
    (h : Readable x below.length) :
    itemMachine.drain (some { rstack := { idx } :: below }) (spell x ++ rest) =
      itemMachine.drain (afterItem { idx } below x) rest := by
  match x with
  | .string str =>
    rw [spell, List.cons_append, drain_type rfl, List.append_assoc]
    exact drain_string h idx below rest
  | .nil =>
    rw [spell, List.cons_append, drain_type rfl]
    exact drain_nil idx below rest
  | .status str =>
    rw [spell, List.cons_append, drain_type rfl]
    refine drain_line h rfl idx below rest ?_
    rw [lineObject, line, List.append_assoc, List.take_left]
  | .error str =>
    rw [spell, List.cons_append, drain_type rfl]
    refine drain_line h rfl idx below rest ?_
    rw [lineObject, line, List.append_assoc, List.take_left]
  | .integer n =>
    rw [spell, List.cons_append, drain_type rfl]
    refine drain_line (notMem_signedDecimal n) rfl idx below rest ?_
    rw [lineObject, readLongLong_signedDecimal h]
    rfl
  | .array elements element =>
    obtain ⟨hdepth, rfl, hlength, hall⟩ := h
    rw [spell, List.cons_append, drain_type rfl, List.append_assoc]
    match element with
    -- without elements it is an item like the others
    | [] => exact drain_noElements hdepth idx _
    | y :: ys =>
      rw [drain_elements (by simp) hlength hdepth]
      exact drain_spellAll (y :: ys) idx [] below rest (by simp) hlength hall

/-- The elements of an array that are still to come. -/
theorem drain_spellAll (todo : List ReplyObject) (idx : ℤ) (obj : List ReplyObject)
    (below : List ReadTask) (rest : List UInt8) (htodo : todo ≠ [])
    (hlength : (obj ++ todo).length < 2 ^ 31) (h : ReadableAll todo (below.length + 1)) :
    itemMachine.drain (some
        { rstack := { idx := obj.length } :: arrayTask idx (obj ++ todo).length obj :: below })
          (spellAll todo ++ rest) =
      itemMachine.drain (afterItem { idx } below (.array (obj ++ todo).length (obj ++ todo)))
        rest := by
  match todo with
  | [] => exact absurd rfl htodo
  | x :: todo =>
    obtain ⟨hx, hall⟩ := h
    -- the first of them is an item inside one array more
    have hfirst := drain_spell x obj.length (arrayTask idx (obj ++ x :: todo).length obj :: below)
      (spellAll todo ++ rest) hx
    rw [spellAll, List.append_assoc, hfirst]
    match todo with
    | [] =>
      -- it was the last one, and the array is complete
      rw [afterItem_last (by simp) hlength]
      rfl
    | y :: ys =>
      -- it is entered into the array, and the next task has the next index
      have hassoc : obj ++ x :: y :: ys = (obj ++ [x]) ++ y :: ys := by simp
      rw [afterItem_more (by simp), hassoc]
      have hobj : obj.length + 1 = (obj ++ [x]).length := by simp
      rw [hobj]
      exact drain_spellAll (y :: ys) idx (obj ++ [x]) below rest (by simp) (hassoc ▸ hlength) hall

end

/-! ### The reader -/

/-- `REDIS_ERR`, or `REDIS_OK` with the new `*reply`. -/
inductive ReplyResult where
  | err
  | ok (reply : Option ReplyObject)

/-- The bytes that have not been read. -/
def RedisReader.unread (r : RedisReader) : List UInt8 := r.buf.drop r.pos

/-- The first item is set when the stack is empty. -/
def Tasks.started (t : Tasks) : Tasks :=
  if t.rstack.isEmpty then { t with rstack := [{ idx := -1 }] } else t

/-- `redisReaderFeed`, and whether it returns `REDIS_OK`. -/
def redisReaderFeed (r : RedisReader) (buf : List UInt8) : RedisReader × Bool :=
  if r.err.isSome then (r, false) else ({ r with buf := r.buf ++ buf }, true)

/-- What is kept of a buffer of which `p` has not been read, and the position: what has been read is
discarded when it is 1k or more. -/
def discard (buf p : List UInt8) : List UInt8 × ℕ :=
  let pos := buf.length - p.length
  if 1024 ≤ pos then (p, 0) else (buf, pos)

/-- `redisReaderGetReply`: go on with the items, and hand out the reply if the outermost one is
complete. An error clears the buffer and stays. -/
def redisReaderGetReply (r : RedisReader) : Option (RedisReader × ReplyResult) :=
  if r.err.isSome then some (r, .err)
  else if r.buf.isEmpty then some (r, .ok none)
  else
    match itemMachine.drain (some r.toTasks.started) r.unread with
    | (none, _) => none
    | (some t, p) =>
      -- an error clears the buffer and the stack
      if t.err.isSome then some ({ err := t.err }, .err)
      else
        let kept := discard r.buf p
        if t.rstack.isEmpty then
          some ({ t with reply := none, buf := kept.1, pos := kept.2 }, .ok t.reply)
        else some ({ t with buf := kept.1, pos := kept.2 }, .ok none)

/-- `redisContext`, as far as it reads. -/
structure ReadContext where
  err : Option String := none
  reader : RedisReader := {}

/-- The result of `read(2)`. -/
inductive ReadResult where
  | data (bytes : List UInt8)
  | interrupted
  | error (str : String)

/-- `redisBufferRead`, and whether it returns `REDIS_OK`. -/
def redisBufferRead (c : ReadContext) (result : ReadResult) : ReadContext × Bool :=
  if c.err.isSome then (c, false)
  else
    match result with
    | .interrupted => (c, true)
    | .error str => ({ c with err := some str }, false)
    | .data bytes =>
      if bytes.isEmpty then ({ c with err := some "Server closed the connection" }, false)
      else
        match redisReaderFeed c.reader bytes with
        | (reader, true) => ({ c with reader }, true)
        | (reader, false) => ({ err := reader.err, reader }, false)

/-- `redisGetReplyFromReader`: an error of the reader becomes one of the context. -/
def redisGetReplyFromReader (c : ReadContext) : Option (ReadContext × ReplyResult) :=
  match redisReaderGetReply c.reader with
  | none => none
  | some (reader, .err) => some ({ err := reader.err, reader }, .err)
  | some (reader, .ok reply) => some ({ c with reader }, .ok reply)

/-- The loop of `redisGetReply` over what `read(2)` returns, with what it has not returned yet.
While `read(2)` blocks there is no reply. -/
def readUntilReply (c : ReadContext) :
    List ReadResult → Option (ReadContext × ReplyResult × List ReadResult)
  | [] => some (c, .ok none, [])
  | result :: later =>
    match redisBufferRead c result with
    | (c, false) => some (c, .err, later)
    | (c, true) =>
      match redisGetReplyFromReader c with
      | none => none
      | some (c, .ok none) => readUntilReply c later
      | some (c, reply) => some (c, reply, later)

/-- `redisGetReply` of a context that blocks, once the commands are written. -/
def redisGetReply (c : ReadContext) (results : List ReadResult) :
    Option (ReadContext × ReplyResult × List ReadResult) :=
  match redisGetReplyFromReader c with
  | none => none
  | some (c, .ok none) => readUntilReply c results
  | some (c, reply) => some (c, reply, results)

/-! ### Portions -/

/-- What the machine leaves is the end of what it was given. -/
theorem drain_suffix (t : Option Tasks) (p : List UInt8) : (itemMachine.drain t p).2 <:+ p := by
  refine Machine.drain_inv (P := fun _ r ↦ r <:+ p) (fun t r t' r' hr hstep ↦ ?_)
    (List.suffix_refl p)
  obtain ⟨u, -, -, ⟨-, -, rfl⟩ | ⟨err, bytes, -, -, rfl⟩ | ⟨rstack, reply, bytes, -, -, rfl⟩⟩ :=
    turn_cases hstep
  · exact hr
  · exact (List.drop_suffix _ _).trans hr
  · exact (List.drop_suffix _ _).trans hr

/-- The tasks for which nothing that arrives makes a difference. -/
theorem turn_of_stuck {t : Tasks} (h : t.err.isSome ∨ t.rstack = []) (d : List UInt8) :
    turn (some t) d = none := by
  rw [turn]
  split
  · rfl
  · next herr =>
    have hstack := h.resolve_left herr
    have hitem : processItem t d = some .wait := by rw [processItem, hstack]
    rw [hitem]

/-- The reader is where it should be when these bytes are still to come for the reply `x`. -/
structure RedisReader.Expects (r : RedisReader) (x : ReplyObject) (bytes : List UInt8) : Prop where
  err : r.err = none
  pos_le : r.pos ≤ r.buf.length
  drain : itemMachine.drain (some r.toTasks.started) (r.unread ++ bytes) =
    (some { reply := some x }, [])

/-- A reader between two replies: there is nothing to be read, and no task is under way. -/
structure RedisReader.AtRest (r : RedisReader) : Prop where
  err : r.err = none
  rstack : r.rstack = []
  reply : r.reply = none
  pos_le : r.pos ≤ r.buf.length
  unread : r.unread = []

theorem RedisReader.AtRest.expects {r : RedisReader} {x : ReplyObject} (h : r.AtRest)
    (hx : Readable x 0) : r.Expects x (spell x) := by
  refine ⟨h.err, h.pos_le, ?_⟩
  have hstarted : r.toTasks.started = { rstack := [{ idx := -1 }] } := by
    rw [Tasks.started, h.rstack, h.err, h.reply]
    rfl
  have hread := drain_spell x (-1) [] [] hx
  rw [List.append_nil] at hread
  have hwaits : turn (some { reply := some x }) [] = none := turn_of_stuck (.inr rfl) []
  rw [hstarted, h.unread, List.nil_append, hread]
  exact Machine.drain_of_waits (M := itemMachine) hwaits

/-- Throwing away what has been read keeps what has not, and the position stays within the buffer.
-/
theorem discard_spec {buf p : List UInt8} (h : p <:+ buf) :
    (discard buf p).1.drop (discard buf p).2 = p ∧
      (discard buf p).2 ≤ (discard buf p).1.length := by
  rw [discard]
  split
  · exact ⟨rfl, Nat.zero_le _⟩
  · exact ⟨(List.suffix_iff_eq_drop.1 h).symm, Nat.sub_le _ _⟩

namespace RedisReader.Expects

variable {r : RedisReader} {x : ReplyObject} {bytes : List UInt8}

/-- A chunk of the bytes that are expected is put behind those that are in the buffer. -/
theorem feed {chunk : List UInt8} (h : r.Expects x (chunk ++ bytes)) :
    ∃ r', redisReaderFeed r chunk = (r', true) ∧ r'.buf = r.buf ++ chunk ∧ r'.Expects x bytes := by
  refine ⟨{ r with buf := r.buf ++ chunk }, ?_, rfl, h.err, ?_, ?_⟩
  · rw [redisReaderFeed, h.err]
    rfl
  · exact h.pos_le.trans (by simp)
  · have hdrain := h.drain
    have hunread : (r.buf ++ chunk).drop r.pos = r.unread ++ chunk :=
      List.drop_append_of_le_length h.pos_le
    rw [← List.append_assoc, ← hunread] at hdrain
    exact hdrain

/-- When all bytes of a reply have arrived, `redisReaderGetReply` hands it out, and the reader is at
rest. -/
theorem getReply (h : r.Expects x []) (hbuf : r.buf ≠ []) :
    ∃ r', redisReaderGetReply r = some (r', .ok (some x)) ∧ r'.AtRest := by
  have hdrain := h.drain
  rw [List.append_nil] at hdrain
  have hsuffix : [] <:+ r.buf := List.nil_suffix
  rw [redisReaderGetReply, h.err, if_neg (by simp), if_neg (by simpa using hbuf), hdrain]
  exact ⟨_, rfl, rfl, rfl, rfl, (discard_spec hsuffix).2, (discard_spec hsuffix).1⟩

/-- As long as some bytes are still to come, `redisReaderGetReply` hands out nothing and keeps what
it has read. -/
theorem getReply_more (h : r.Expects x bytes) (hbytes : bytes ≠ []) :
    ∃ r', redisReaderGetReply r = some (r', .ok none) ∧ r'.Expects x bytes := by
  rw [redisReaderGetReply, h.err, if_neg (by simp)]
  by_cases hbuf : r.buf = []
  · rw [if_pos (by rw [hbuf]; rfl)]
    exact ⟨r, rfl, h⟩
  · rw [if_neg (by simpa using hbuf)]
    have hsuffix := (drain_suffix (some r.toTasks.started) r.unread).trans
      (List.drop_suffix r.pos r.buf)
    -- the machine has come to no state from which the bytes to come would not be read
    have hstuck : ∀ t, (itemMachine.drain (some r.toTasks.started) r.unread).1 = some t →
        ¬ (t.err.isSome ∨ t.rstack = []) := by
      intro t ht hstuck
      refine hbytes (Machine.eq_nil_of_waits h.drain fun d ↦ ?_)
      rw [ht]
      exact turn_of_stuck hstuck d
    have hdefined : (itemMachine.drain (some r.toTasks.started) r.unread).1 ≠ none := by
      intro hnone
      refine hbytes (Machine.eq_nil_of_waits h.drain fun d ↦ ?_)
      rw [hnone]
      rfl
    have hdrain := h.drain
    rw [Machine.drain_append] at hdrain
    cases hcase : itemMachine.drain (some r.toTasks.started) r.unread with
    | mk t p =>
      rw [hcase] at hsuffix hstuck hdefined hdrain
      cases t with
      | none => exact absurd rfl hdefined
      | some t =>
        obtain ⟨herr, hstack⟩ := not_or.1 (hstuck t rfl)
        dsimp only
        rw [if_neg herr, if_neg (by simpa using hstack)]
        refine ⟨_, rfl, by simpa using herr, (discard_spec hsuffix).2, ?_⟩
        have hstarted : t.started = t := by rw [Tasks.started, if_neg (by simpa using hstack)]
        show itemMachine.drain (some t.started) (((discard r.buf p).1.drop (discard r.buf p).2) ++
          bytes) = _
        rw [hstarted, (discard_spec hsuffix).1]
        exact hdrain

end RedisReader.Expects

/-! ### Replies -/

/-- What `read(2)` returns brings these bytes: portions of them, interrupted calls in between, and a
portion at the end. -/
inductive Brings : List UInt8 → List ReadResult → Prop
  | last {chunk} (h : chunk ≠ []) : Brings chunk [.data chunk]
  | data {chunk bytes results} (h : chunk ≠ []) :
      Brings bytes results → Brings (chunk ++ bytes) (.data chunk :: results)
  | interrupted {bytes results} : Brings bytes results → Brings bytes (.interrupted :: results)

theorem Brings.ne_nil {bytes : List UInt8} {results : List ReadResult} (h : Brings bytes results) :
    bytes ≠ [] := by
  induction h with
  | last h => exact h
  | data h => exact fun hnil ↦ h (List.append_eq_nil_iff.1 hnil).1
  | interrupted _ ih => exact ih

/-- A connection between two replies: no error, and a reader at rest. -/
structure ReadContext.AtRest (c : ReadContext) : Prop where
  err : c.err = none
  reader : c.reader.AtRest

section

variable {c : ReadContext} {x : ReplyObject} {bytes : List UInt8} {results : List ReadResult}

theorem redisBufferRead_data {chunk : List UInt8} {reader : RedisReader} (herr : c.err = none)
    (hchunk : chunk ≠ []) (hfeed : redisReaderFeed c.reader chunk = (reader, true)) :
    redisBufferRead c (.data chunk) = ({ c with reader }, true) := by
  rw [redisBufferRead, herr, if_neg (by simp), if_neg (by simpa using hchunk), hfeed]

/-- **One reply.** The loop of `redisGetReply` reads on through portions and interrupted reads until
the reply is there, and then there is nothing left of it. -/
theorem readUntilReply_brings (h : Brings bytes results) (herr : c.err = none)
    (hreader : c.reader.Expects x bytes) (later : List ReadResult) :
    ∃ c', readUntilReply c (results ++ later) = some (c', .ok (some x), later) ∧ c'.AtRest := by
  induction h generalizing c with
  | @last chunk hchunk =>
    rw [← List.append_nil chunk] at hreader
    obtain ⟨r, hfeed, hbuf, hr⟩ := hreader.feed
    obtain ⟨r', hget, hrest⟩ := hr.getReply (by rw [hbuf]; simp [hchunk])
    refine ⟨{ c with reader := r' }, ?_, herr, hrest⟩
    rw [List.singleton_append, readUntilReply, redisBufferRead_data herr hchunk hfeed]
    dsimp only
    rw [redisGetReplyFromReader, hget]
  | data hchunk hlater ih =>
    obtain ⟨r, hfeed, -, hr⟩ := hreader.feed
    obtain ⟨r', hget, hr'⟩ := hr.getReply_more hlater.ne_nil
    rw [List.cons_append, readUntilReply, redisBufferRead_data herr hchunk hfeed]
    dsimp only
    rw [redisGetReplyFromReader, hget]
    exact ih herr hr'
  | interrupted hlater ih =>
    -- the reader is asked again, and there is nothing new
    obtain ⟨r', hget, hr'⟩ := hreader.getReply_more hlater.ne_nil
    rw [List.cons_append, readUntilReply, redisBufferRead, herr, if_neg (by simp)]
    dsimp only
    rw [redisGetReplyFromReader, hget]
    exact ih herr hr'

/-- **A reply**, whatever portions it comes in. -/
theorem redisGetReply_brings (hc : c.AtRest) (hx : Readable x 0) (h : Brings (spell x) results)
    (later : List ReadResult) :
    ∃ c', redisGetReply c (results ++ later) = some (c', .ok (some x), later) ∧ c'.AtRest := by
  obtain ⟨r, hget, hr⟩ := (hc.reader.expects hx).getReply_more h.ne_nil
  rw [redisGetReply, redisGetReplyFromReader, hget]
  exact readUntilReply_brings (c := { c with reader := r }) h hc.err hr later

end

/-- `redisGetReply`, called so many times in a row. -/
def redisGetReplies :
    ℕ → ReadContext → List ReadResult → Option (ReadContext × List ReplyResult × List ReadResult)
  | 0, c, results => some (c, [], results)
  | n + 1, c, results => do
    let (c, reply, results) ← redisGetReply c results
    let (c, replies, results) ← redisGetReplies n c results
    return (c, reply :: replies, results)

/-- **Replies are read as they were sent**, one for each call and in order, whatever portions they
come in, and nothing is left behind. -/
theorem getReplies_brings {c : ReadContext} (answers : List (ReplyObject × List ReadResult))
    (hc : c.AtRest) (h : ∀ a ∈ answers, Readable a.1 0 ∧ Brings (spell a.1) a.2)
    (later : List ReadResult) :
    ∃ c', redisGetReplies answers.length c (answers.flatMap Prod.snd ++ later) =
      some (c', answers.map fun a ↦ .ok (some a.1), later) ∧ c'.AtRest := by
  induction answers generalizing c with
  | nil => exact ⟨c, rfl, hc⟩
  | cons a answers ih =>
    obtain ⟨hreadable, hbrings⟩ := h a List.mem_cons_self
    obtain ⟨c', hget, hrest⟩ :=
      redisGetReply_brings hc hreadable hbrings (answers.flatMap Prod.snd ++ later)
    obtain ⟨c'', hreplies, hrest'⟩ := ih hrest fun b hb ↦ h b (List.mem_cons_of_mem _ hb)
    refine ⟨c'', ?_, hrest'⟩
    rw [List.length_cons, redisGetReplies, List.flatMap_cons, List.append_assoc, hget]
    dsimp only [Option.bind_eq_bind, Option.bind_some]
    rw [hreplies]
    rfl

/-- An array of two letters, an integer and nil. -/
def sampleReply : ReplyObject := .array 3 [.string [0x68, 0x69], .integer (-3), .nil]

/-- It comes in three portions: the first one ends in the length of the string, the second one in
the integer. -/
def sampleResults : List ReadResult :=
  [.data [0x2a, 0x33, 0x0d, 0x0a, 0x24, 0x32, 0x0d], .interrupted,
    .data [0x0a, 0x68, 0x69, 0x0d, 0x0a, 0x3a, 0x2d],
    .data [0x33, 0x0d, 0x0a, 0x24, 0x2d, 0x31, 0x0d, 0x0a]]

theorem brings_sampleResults : Brings (spell sampleReply) sampleResults := by
  have hspell : spell sampleReply = [0x2a, 0x33, 0x0d, 0x0a, 0x24, 0x32, 0x0d] ++
      ([0x0a, 0x68, 0x69, 0x0d, 0x0a, 0x3a, 0x2d] ++
        [0x33, 0x0d, 0x0a, 0x24, 0x2d, 0x31, 0x0d, 0x0a]) := by decide
  rw [hspell]
  exact .data (List.cons_ne_nil _ _) <| .interrupted <| .data (List.cons_ne_nil _ _) <|
    .last (List.cons_ne_nil _ _)

/-- The sample is nested less deep than the reader allows, and its lengths and numbers fit. -/
theorem readable_sampleReply : Readable sampleReply 0 := by
  refine ⟨by decide, rfl, by decide, ?_, ?_, trivial, trivial⟩
  · show 2 < 2 ^ 31
    decide
  · show 3 < 2 ^ 63
    decide

/-- The sample reply between two others: what is read of each does not depend on what is around it.
-/
theorem getReplies_brings_sample : ∃ c', redisGetReplies 3 {}
    ([.data [0x2b, 0x4f, 0x4b, 0x0d, 0x0a]] ++ sampleResults ++
      [.data [0x2b, 0x4f, 0x4b], .data [0x0d, 0x0a]]) =
    some (c', [.ok (some (.status [0x4f, 0x4b])), .ok (some sampleReply),
      .ok (some (.status [0x4f, 0x4b]))], []) ∧ c'.AtRest := by
  have hrest : ReadContext.AtRest {} := ⟨rfl, rfl, rfl, rfl, Nat.le_refl _, rfl⟩
  have hok : Readable (.status [0x4f, 0x4b]) 0 := by
    show (0x0d : UInt8) ∉ [0x4f, 0x4b]
    decide
  have hwhole : Brings (spell (.status [0x4f, 0x4b])) [.data [0x2b, 0x4f, 0x4b, 0x0d, 0x0a]] :=
    .last (List.cons_ne_nil _ _)
  have hparts : Brings (spell (.status [0x4f, 0x4b]))
      [.data [0x2b, 0x4f, 0x4b], .data [0x0d, 0x0a]] :=
    .data (List.cons_ne_nil _ _) (.last (List.cons_ne_nil _ _))
  exact getReplies_brings [(.status [0x4f, 0x4b], [.data [0x2b, 0x4f, 0x4b, 0x0d, 0x0a]]),
    (sampleReply, sampleResults),
    (.status [0x4f, 0x4b], [.data [0x2b, 0x4f, 0x4b], .data [0x0d, 0x0a]])] hrest (by
      intro a ha
      simp only [List.mem_cons, List.not_mem_nil, or_false] at ha
      rcases ha with rfl | rfl | rfl
      · exact ⟨hok, hwhole⟩
      · exact ⟨readable_sampleReply, brings_sampleResults⟩
      · exact ⟨hok, hparts⟩) []

/-! ### Any bytes -/

/-- What a call of `redisReaderGetReply` comes to, once the buffer is not empty: the tasks and the
bytes that it leaves, and what it returns. -/
def readItems (t : Tasks) (p : List UInt8) : Option (Tasks × List UInt8 × ReplyResult) :=
  match itemMachine.drain (some t.started) p with
  | (none, _) => none
  | (some t, p) =>
    if t.err.isSome then some ({ err := t.err }, [], .err)
    else if t.rstack.isEmpty then some ({ t with reply := none }, p, .ok t.reply)
    else some (t, p, .ok none)

/-- What is seen of a reader after a call: not how much has been discarded. -/
def seen (x : RedisReader × ReplyResult) : Tasks × List UInt8 × ReplyResult :=
  (x.1.toTasks, x.1.unread, x.2)

theorem started_rstack (t : Tasks) : t.started.rstack ≠ [] := by
  rw [Tasks.started]
  split
  · exact List.cons_ne_nil _ _
  · next hstack => simpa using hstack

theorem started_eq {t : Tasks} (h : t.rstack ≠ []) : t.started = t := by
  rw [Tasks.started, if_neg (by simpa using h)]

/-- When the stack is empty, the outermost item has been read, so there is a reply to be handed out.
-/
theorem drain_reply {t t' : Tasks} {p p' : List UInt8}
    (hdrain : itemMachine.drain (some t.started) p = (some t', p')) (hstack : t'.rstack = []) :
    t'.reply.isSome := by
  have hinv := Machine.drain_inv (M := itemMachine) (b := p) (s := some t.started)
    (P := fun t _ ↦ ∀ u, t = some u → u.rstack = [] → u.reply.isSome)
    (fun s b s' r hs hstep u hu hnil ↦ ?_) ?_
  · rw [hdrain] at hinv
    exact hinv t' rfl hstack
  · obtain ⟨v, rfl, -, ⟨-, rfl, -⟩ | ⟨err, bytes, hitem, rfl, -⟩ |
      ⟨rstack, reply, bytes, hitem, rfl, -⟩⟩ := turn_cases hstep
    · cases hu
    · cases hu
      exact hs v rfl hnil
    · cases hu
      obtain ⟨-, -, hreply⟩ : ItemResult.Takes b (.done rstack reply bytes) :=
        processItem_takes hitem
      exact hreply hnil
  · intro u hu hnil
    cases hu
    exact absurd hnil (started_rstack t)

/-- **What was read of an unfinished reply** is as good as unread: reading on with more is the same
as reading all of it at once. -/
theorem readItems_append {t t' : Tasks} {p p' : List UInt8}
    (h : readItems t p = some (t', p', .ok none)) (c : List UInt8) :
    t'.err = none ∧ readItems t' (p' ++ c) = readItems t (p ++ c) := by
  cases hcase : itemMachine.drain (some t.started) p with
  | mk u q =>
    rw [readItems, hcase] at h
    cases u with
    | none => cases h
    | some u =>
      dsimp only at h
      split at h
      · cases h
      · next herr =>
        split at h
        · next hstack =>
          have hreply := drain_reply hcase (by simpa using hstack)
          have hok := (Prod.mk.inj (Prod.mk.inj (Option.some.inj h)).2).2
          rw [ReplyResult.ok.inj hok] at hreply
          cases hreply
        · next hstack =>
          cases h
          refine ⟨by simpa using herr, ?_⟩
          have happend : itemMachine.drain (some t.started) (p ++ c) =
              itemMachine.drain (some t') (p' ++ c) := by
            rw [Machine.drain_append, hcase]
          rw [readItems, readItems, started_eq (by simpa using hstack), happend]

/-- `redisReaderGetReply`, as far as a caller can see it, is a function of the tasks and of the
bytes that have not been read. -/
theorem getReply_eq {r : RedisReader} (herr : r.err = none) (hbuf : r.buf ≠ []) :
    (redisReaderGetReply r).map seen = readItems r.toTasks r.unread := by
  have hsuffix := (drain_suffix (some r.toTasks.started) r.unread).trans
    (List.drop_suffix r.pos r.buf)
  rw [redisReaderGetReply, readItems, herr, if_neg (by simp), if_neg (by simpa using hbuf)]
  cases hcase : itemMachine.drain (some r.toTasks.started) r.unread with
  | mk u q =>
    rw [hcase] at hsuffix
    have hkept := (discard_spec hsuffix).1
    cases u with
    | none => rfl
    | some u =>
      dsimp only
      split
      · rfl
      · split
        · exact congrArg (fun p ↦ some (_, p, _)) hkept
        · exact congrArg (fun p ↦ some (_, p, _)) hkept

/-- The position stays within the buffer, whatever comes of the reading. -/
theorem getReply_pos_le {r r' : RedisReader} {reply : ReplyResult} (hpos : r.pos ≤ r.buf.length)
    (h : redisReaderGetReply r = some (r', reply)) : r'.pos ≤ r'.buf.length := by
  have hsuffix := (drain_suffix (some r.toTasks.started) r.unread).trans
    (List.drop_suffix r.pos r.buf)
  rw [redisReaderGetReply] at h
  split at h
  · cases h
    exact hpos
  · split at h
    · cases h
      exact hpos
    · split at h
      · cases h
      · next t p hcase =>
        rw [hcase] at hsuffix
        split at h
        · cases h
          exact Nat.le_refl _
        · dsimp only at h
          split at h
          · cases h
            exact (discard_spec hsuffix).2
          · cases h
            exact (discard_spec hsuffix).2

/-- A call with a portion more, as long as no error has stopped the reader. -/
theorem getReply_feed {r : RedisReader} {chunk : List UInt8} (herr : r.err = none)
    (hpos : r.pos ≤ r.buf.length) (hchunk : chunk ≠ []) :
    (redisReaderGetReply (redisReaderFeed r chunk).1).map seen =
      readItems r.toTasks (r.unread ++ chunk) := by
  have hfeed : (redisReaderFeed r chunk).1 = { r with buf := r.buf ++ chunk } := by
    rw [redisReaderFeed, herr]
    rfl
  have hunread : (r.buf ++ chunk).drop r.pos = r.unread ++ chunk :=
    List.drop_append_of_le_length hpos
  rw [hfeed, getReply_eq (by exact herr) (by simp [hchunk]), ← hunread]
  rfl

/-- Portions are fed one after the other, until a call comes to something. -/
def readPortions (r : RedisReader) : List (List UInt8) → Option (RedisReader × ReplyResult)
  | [] => some (r, .ok none)
  | chunk :: chunks =>
    match redisReaderGetReply (redisReaderFeed r chunk).1 with
    | some (r, .ok none) => readPortions r chunks
    | result => result

/-- A portion that does not complete anything is followed by the next one. -/
theorem readPortions_of_more {r r₁ : RedisReader} {chunk : List UInt8}
    (hget : redisReaderGetReply (redisReaderFeed r chunk).1 = some (r₁, .ok none))
    (chunks : List (List UInt8)) :
    readPortions r (chunk :: chunks) = readPortions r₁ chunks := by
  rw [readPortions, hget]

/-- The first portion that comes to something, a reply or an error, is the last one that is fed. -/
theorem readPortions_of_result {r : RedisReader} {chunk : List UInt8}
    (hget : ∀ r₁, redisReaderGetReply (redisReaderFeed r chunk).1 ≠ some (r₁, .ok none))
    (chunks : List (List UInt8)) :
    readPortions r (chunk :: chunks) = redisReaderGetReply (redisReaderFeed r chunk).1 := by
  rw [readPortions]
  split
  · next r₁ h => exact absurd h (hget r₁)
  · rfl

/-- **Portions do not matter.** Whatever bytes come in, replies or not: the calls after the portions
come to what one call comes to when it is fed with all that has been read by then, and that is all
there is unless something has come of it. -/
theorem readPortions_seen {r : RedisReader} (herr : r.err = none) (hpos : r.pos ≤ r.buf.length)
    {chunks : List (List UInt8)} (hne : chunks ≠ []) (hall : ∀ chunk ∈ chunks, chunk ≠ []) :
    ∃ read later, read ≠ [] ∧ read ++ later = chunks ∧
      (readPortions r chunks).map seen =
        (redisReaderGetReply (redisReaderFeed r read.flatten).1).map seen ∧
      (later = [] ∨ ∀ r', readPortions r chunks ≠ some (r', .ok none)) := by
  induction chunks generalizing r with
  | nil => exact absurd rfl hne
  | cons chunk chunks ih =>
    have hchunk := hall chunk List.mem_cons_self
    have hflatten : [chunk].flatten = chunk := List.append_nil chunk
    -- either the first portion comes to something, or the rest is read from where it has led
    by_cases hmore : ∃ r₁, redisReaderGetReply (redisReaderFeed r chunk).1 = some (r₁, .ok none)
    · obtain ⟨r₁, hget⟩ := hmore
      rw [readPortions_of_more hget]
      cases chunks with
      | nil =>
        refine ⟨[chunk], [], List.cons_ne_nil _ _, rfl, ?_, .inl rfl⟩
        rw [hflatten, hget]
        rfl
      | cons chunk' chunks =>
        have hfed : (redisReaderFeed r chunk).1.pos ≤ (redisReaderFeed r chunk).1.buf.length := by
          rw [redisReaderFeed, herr]
          exact hpos.trans (by simp)
        have hseen := getReply_feed herr hpos hchunk
        rw [hget] at hseen
        have hnone := (readItems_append hseen.symm []).1
        obtain ⟨read, later, hread, hsplit, heq, hlater⟩ := ih hnone (getReply_pos_le hfed hget)
          (List.cons_ne_nil _ _) fun c hc ↦ hall c (List.mem_cons_of_mem _ hc)
        -- what has been read behind the first portion is not empty, so a call looks at it
        have hbehind : read.flatten ≠ [] := by
          obtain ⟨c, hc⟩ := List.exists_mem_of_ne_nil read hread
          have hcne := hall c (List.mem_cons_of_mem _ (hsplit ▸ List.mem_append_left _ hc))
          exact fun hnil ↦ hcne (List.flatten_eq_nil_iff.1 hnil c hc)
        refine ⟨chunk :: read, later, List.cons_ne_nil _ _, by rw [List.cons_append, hsplit], ?_,
          hlater⟩
        rw [heq, List.flatten_cons, getReply_feed hnone (getReply_pos_le hfed hget) hbehind,
          getReply_feed herr hpos (by simp [hchunk]), ← List.append_assoc]
        exact (readItems_append hseen.symm read.flatten).2
    · have hresult : ∀ r₁, redisReaderGetReply (redisReaderFeed r chunk).1 ≠ some (r₁, .ok none) :=
        fun r₁ h ↦ hmore ⟨r₁, h⟩
      rw [readPortions_of_result hresult]
      exact ⟨[chunk], chunks, List.cons_ne_nil _ _, rfl, by rw [hflatten], .inr hresult⟩

/-- An array whose element begins with no type, in two portions. -/
theorem readPortions_seen_nested : ∃ read later, read ≠ [] ∧
    read ++ later = [[0x2a, 0x31, 0x0d], [0x0a, 0x3f]] ∧
    (readPortions {} [[0x2a, 0x31, 0x0d], [0x0a, 0x3f]]).map seen =
      (redisReaderGetReply (redisReaderFeed {} read.flatten).1).map seen ∧
    (later = [] ∨ ∀ r', readPortions {} [[0x2a, 0x31, 0x0d], [0x0a, 0x3f]] ≠ some (r', .ok none)) :=
  readPortions_seen rfl (Nat.le_refl _) (by decide) (by decide)

end Hiredis

end QCLib
