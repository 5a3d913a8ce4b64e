import Mathlib.Data.List.Basic
import Mathlib.Tactic

/-!
# The ring buffer

`LoopArray` of `containers_define.h`: a bounded queue in a circular buffer. `Holds` relates a buffer
to the list of its elements, oldest first, and each operation is one on lists: `push_back` appends
unless the buffer is full, `pop_front` takes the head off, and `Append` moves as many elements from
one buffer to another as there is room for.

The elements are pointers; `NULL` is the default value of their type. What the memory of a new
buffer holds does not matter.

The program has several buffers and moves elements between them, so the results are about families.
`HoldsAll` says that each buffer of a family holds its list, `step_refines` is one operation on the
family, and `run_new` starts from new buffers over any memory: whatever is called, in whatever
order, the results are those of the lists.

`Append` moves in a loop of `push_back` and `pop_front`, and stops when the target is full or the
source empty. It says `true` whenever neither was the case to begin with, also if some elements were
left behind.
-/

namespace QCLib

/-- `LoopArray`: a buffer of `capacity` places, used in a circle from `head` to `tail`. The elements
are counted, so a full array and an empty one can be told apart. -/
structure LoopArray (α : Type*) where
  head : ℕ
  tail : ℕ
  size : ℕ
  capacity : ℕ
  pBuf : List α
  deriving DecidableEq, Repr

namespace LoopArray

variable {α : Type*}

/-- `_Default_Len_`. -/
def defaultLen : ℕ := 1024

/-- The constructors, on memory with some contents. Without a size the buffer has the default
one. -/
def new (memory : ℕ → α) (bufsize : ℕ) : LoopArray α :=
  let capacity := if bufsize < 1 then defaultLen else bufsize
  { head := 0, tail := 0, size := 0, capacity, pBuf := (List.range capacity).map memory }

/-- `IsFull`: no place is left. -/
def isFull (q : LoopArray α) : Bool := q.size ≥ q.capacity

/-- `IsEmpty`: no place is in use. -/
def isEmpty (q : LoopArray α) : Bool := q.size = 0

/-- `push_back`, which refuses an element when the array is full. -/
def pushBack (q : LoopArray α) (item : α) : LoopArray α × Bool :=
  if q.isFull then (q, false)
  else
    ({ q with
        pBuf := q.pBuf.set q.tail item
        tail := (q.tail + 1) % q.capacity
        size := q.size + 1 },
      true)

/-- `clear`: the indices go back to the start, and the buffer is not touched. -/
def clear (q : LoopArray α) : LoopArray α := { q with head := 0, tail := 0, size := 0 }

variable [Inhabited α]

/-- `pop_front`, which returns a default value when the array is empty. -/
def popFront (q : LoopArray α) : LoopArray α × α :=
  if q.isEmpty then (q, default)
  else
    ({ q with head := (q.head + 1) % q.capacity, size := q.size - 1 }, q.pBuf.getD q.head default)

/-- The loop of `Append`, which ends with the source if not before. -/
def appendLoop (q source : LoopArray α) : LoopArray α × LoopArray α :=
  let item := source.popFront
  let q := (q.pushBack item.2).1
  if h : !q.isFull && !item.1.isEmpty then appendLoop q item.1 else (q, item.1)
termination_by source.size
decreasing_by
  rw [Bool.and_eq_true] at h
  have hpos : source.popFront.1.size ≠ 0 := by simpa [isEmpty] using h.2
  have hsize : source.popFront.1.size = source.size - 1 := by
    rw [popFront]
    split
    · next hempty =>
      have hzero : source.size = 0 := of_decide_eq_true hempty
      show source.size = source.size - 1
      omega
    · rfl
  omega

/-- `Append`: as many elements as fit are moved over from the source, which is returned as well. -/
def append (q source : LoopArray α) : LoopArray α × LoopArray α × Bool :=
  if q.isFull then (q, source, false)
  else if source.isEmpty then (q, source, false)
  else
    let moved := appendLoop q source
    (moved.1, moved.2, true)

/-! ### Contents -/

/-- The elements of the buffer, the oldest first. -/
def contents (q : LoopArray α) : List α :=
  (List.range q.size).map fun i ↦ q.pBuf.getD ((q.head + i) % q.capacity) default

/-- The buffer holds these elements, the oldest at `head`. -/
structure Holds (q : LoopArray α) (l : List α) : Prop where
  capacity_pos : 0 < q.capacity
  length : q.pBuf.length = q.capacity
  size : q.size = l.length
  size_le : q.size ≤ q.capacity
  head_lt : q.head < q.capacity
  tail : q.tail = (q.head + q.size) % q.capacity
  slot : ∀ i < l.length, q.pBuf[(q.head + i) % q.capacity]? = l[i]?

variable {q source : LoopArray α} {l m : List α} {item : α}

omit [Inhabited α] in
/-- A new queue is empty, whatever its memory held before. -/
theorem holds_new (memory : ℕ → α) (bufsize : ℕ) : (new memory bufsize).Holds [] := by
  have hpos : 0 < (new memory bufsize).capacity := by
    show 0 < if bufsize < 1 then defaultLen else bufsize
    split
    · decide
    · omega
  exact
    { capacity_pos := hpos
      length := by simp [new]
      size := rfl
      size_le := Nat.zero_le _
      head_lt := hpos
      tail := (Nat.zero_mod _).symm
      slot := fun i hi ↦ absurd hi (Nat.not_lt_zero i) }

/-- Two slots of the buffer, counted from `head`, are different. -/
private theorem slot_ne {cap h i j : ℕ} (hij : i < j) (hj : j < cap) :
    (h + i) % cap ≠ (h + j) % cap := by
  intro heq
  have hmod : i ≡ j [MOD cap] := Nat.ModEq.add_left_cancel' h heq
  rw [Nat.ModEq, Nat.mod_eq_of_lt (by omega), Nat.mod_eq_of_lt hj] at hmod
  omega

namespace Holds

section

omit [Inhabited α]

theorem isEmpty_eq (h : q.Holds l) : q.isEmpty = decide (l = []) := by
  rw [isEmpty, h.size]
  exact decide_eq_decide.2 List.length_eq_zero_iff

/-- `IsFull` says whether there are as many elements as fit. -/
theorem isFull_eq (h : q.Holds l) : q.isFull = decide (q.capacity ≤ l.length) := by
  rw [isFull, h.size]

theorem clear (h : q.Holds l) : q.clear.Holds [] :=
  { h with
    size := rfl
    size_le := Nat.zero_le _
    head_lt := h.capacity_pos
    tail := (Nat.zero_mod _).symm
    slot := fun i hi ↦ absurd hi (Nat.not_lt_zero i) }

/-- A full queue refuses an element, and stays as it is. -/
theorem pushBack_of_full (h : q.Holds l) (hfull : q.capacity ≤ l.length) (item : α) :
    q.pushBack item = (q, false) := by
  rw [pushBack, h.isFull_eq, if_pos (decide_eq_true hfull)]

/-- **`push_back`** appends while there is room. -/
theorem pushBack (h : q.Holds l) (hroom : l.length < q.capacity) (item : α) :
    (q.pushBack item).1.Holds (l ++ [item]) ∧ (q.pushBack item).2 = true ∧
      (q.pushBack item).1.capacity = q.capacity := by
  have hnot : ¬ q.isFull = true := by
    rw [h.isFull_eq, decide_eq_true_eq]
    omega
  have htail : q.tail < q.pBuf.length := by
    rw [h.tail, h.length]
    exact Nat.mod_lt _ h.capacity_pos
  rw [LoopArray.pushBack, if_neg hnot]
  refine ⟨?_, rfl, rfl⟩
  exact
    { capacity_pos := h.capacity_pos
      length := by rw [List.length_set, h.length]
      size := by rw [List.length_append, h.size]; rfl
      size_le := by
        show q.size + 1 ≤ q.capacity
        rw [h.size]
        omega
      head_lt := h.head_lt
      tail := by
        show (q.tail + 1) % q.capacity = (q.head + (q.size + 1)) % q.capacity
        rw [h.tail, Nat.mod_add_mod, Nat.add_assoc]
      slot := fun i hi ↦ by
        show (q.pBuf.set q.tail item)[(q.head + i) % q.capacity]? = (l ++ [item])[i]?
        rw [List.length_append, List.length_singleton] at hi
        rcases Nat.lt_succ_iff_lt_or_eq.1 hi with hlt | rfl
        · -- The new element goes into a slot that is not in use.
          have hne : q.tail ≠ (q.head + i) % q.capacity := by
            rw [h.tail, h.size]
            exact (slot_ne hlt hroom).symm
          rw [List.getElem?_set_ne hne, h.slot i hlt, List.getElem?_append_left hlt]
        · rw [← h.size, ← h.tail, List.getElem?_set_self htail, h.size,
            List.getElem?_concat_length] }

end

theorem popFront_nil (h : q.Holds []) : q.popFront = (q, default) := by
  rw [popFront, h.isEmpty_eq]
  rfl

/-- **`pop_front`** takes the oldest element, and leaves the others in their order. -/
theorem popFront_cons (h : q.Holds (item :: l)) :
    q.popFront.1.Holds l ∧ q.popFront.2 = item ∧ q.popFront.1.capacity = q.capacity := by
  have hsize : q.size = l.length + 1 := h.size
  have hnot : ¬ q.isEmpty = true := by
    rw [h.isEmpty_eq]
    simp
  have hhead : q.pBuf[q.head]? = some item := by
    have hslot := h.slot 0 (Nat.zero_lt_succ _)
    rwa [Nat.add_zero, Nat.mod_eq_of_lt h.head_lt] at hslot
  rw [popFront, if_neg hnot]
  refine ⟨?_, by rw [List.getD_eq_getElem?_getD, hhead]; rfl, rfl⟩
  exact
    { capacity_pos := h.capacity_pos
      length := h.length
      size := by
        show q.size - 1 = l.length
        omega
      size_le := by
        have := h.size_le
        show q.size - 1 ≤ q.capacity
        omega
      head_lt := Nat.mod_lt _ h.capacity_pos
      tail := by
        show q.tail = ((q.head + 1) % q.capacity + (q.size - 1)) % q.capacity
        rw [h.tail, Nat.mod_add_mod, show q.head + 1 + (q.size - 1) = q.head + q.size by omega]
      slot := fun i hi ↦ by
        show q.pBuf[((q.head + 1) % q.capacity + i) % q.capacity]? = l[i]?
        rw [Nat.mod_add_mod, Nat.add_assoc, Nat.add_comm 1 i, h.slot (i + 1) (by simpa using hi)]
        rfl }

private theorem appendLoop_cons (hs : source.Holds (item :: m)) :
    appendLoop q source =
      if (q.pushBack item).1.isFull = false ∧ m ≠ [] then
        appendLoop (q.pushBack item).1 source.popFront.1
      else ((q.pushBack item).1, source.popFront.1) := by
  obtain ⟨hpop, hitem, -⟩ := hs.popFront_cons
  rw [appendLoop]
  simp only [hitem, hpop.isEmpty_eq]
  refine dite_congr ?_ (fun _ ↦ rfl) fun _ ↦ rfl
  simp

/-- The loop of `Append` moves as many elements as there is room for, from the front of the other
queue. -/
private theorem appendLoop_spec (h : q.Holds l) (hs : source.Holds m) (hne : m ≠ [])
    (hroom : l.length < q.capacity) :
    (appendLoop q source).1.Holds (l ++ m.take (q.capacity - l.length)) ∧
      (appendLoop q source).2.Holds (m.drop (q.capacity - l.length)) ∧
        (appendLoop q source).1.capacity = q.capacity ∧
          (appendLoop q source).2.capacity = source.capacity := by
  induction m generalizing q source l with
  | nil => exact absurd rfl hne
  | cons item m ih =>
    obtain ⟨hpush, -, hcap⟩ := h.pushBack hroom item
    obtain ⟨hpop, -, hscap⟩ := hs.popFront_cons
    obtain ⟨k, hk⟩ : ∃ k, q.capacity - l.length = k + 1 := ⟨q.capacity - l.length - 1, by omega⟩
    have hk' : (q.pushBack item).1.capacity - (l ++ [item]).length = k := by
      rw [hcap, List.length_append, List.length_singleton]
      omega
    rw [appendLoop_cons hs, hk, List.take_succ_cons, List.drop_succ_cons]
    split_ifs with hmore
    · obtain ⟨hnfull, hm⟩ := hmore
      have hroom' : (l ++ [item]).length < (q.pushBack item).1.capacity := by
        rw [hpush.isFull_eq, decide_eq_false_iff_not] at hnfull
        omega
      obtain ⟨hq, hrest, hqcap, hrcap⟩ := ih hpush hpop hm hroom'
      rw [hk', List.append_assoc] at hq
      rw [hk'] at hrest
      exact ⟨hq, hrest, hqcap.trans hcap, hrcap.trans hscap⟩
    · -- Either the buffer is full now, or the source is empty.
      have hend : m.take k = [] ∧ m.drop k = m := by
        rcases Decidable.em (m = []) with rfl | hm
        · exact ⟨List.take_nil, List.drop_nil⟩
        · have hfull : (q.pushBack item).1.isFull = true :=
            Bool.of_not_eq_false fun hf ↦ hmore ⟨hf, hm⟩
          rw [hpush.isFull_eq, decide_eq_true_eq] at hfull
          obtain rfl : k = 0 := by omega
          exact ⟨List.take_zero, List.drop_zero⟩
      rw [hend.1, hend.2]
      exact ⟨hpush, hpop, hcap, hscap⟩

/-- **`Append`** moves the elements there is room for, in order, and says whether there were any. -/
theorem append (h : q.Holds l) (hs : source.Holds m) :
    (q.append source).1.Holds (l ++ m.take (q.capacity - l.length)) ∧
      (q.append source).2.1.Holds (m.drop (q.capacity - l.length)) ∧
        (q.append source).2.2 = decide (l.length < q.capacity ∧ m ≠ []) ∧
          (q.append source).1.capacity = q.capacity ∧
            (q.append source).2.1.capacity = source.capacity := by
  rw [LoopArray.append, h.isFull_eq, hs.isEmpty_eq]
  split_ifs with hfull hempty
  · rw [decide_eq_true_eq] at hfull
    rw [show q.capacity - l.length = 0 by omega, List.take_zero, List.append_nil, List.drop_zero]
    refine ⟨h, hs, ?_, rfl, rfl⟩
    rw [decide_eq_false (by omega)]
  · obtain rfl := of_decide_eq_true hempty
    rw [List.take_nil, List.append_nil, List.drop_nil]
    exact ⟨h, hs, (decide_eq_false fun hm ↦ hm.2 rfl).symm, rfl, rfl⟩
  · rw [decide_eq_true_eq] at hfull hempty
    obtain ⟨hq, hrest, hcap, hscap⟩ := appendLoop_spec h hs hempty (by omega)
    exact ⟨hq, hrest, (decide_eq_true ⟨by omega, hempty⟩).symm, hcap, hscap⟩

omit [Inhabited α] in
/-- Pushing a list without looking at the results keeps as much of it as there is room for. -/
theorem foldl_pushBack (h : q.Holds l) (items : List α) :
    (items.foldl (fun q item ↦ (q.pushBack item).1) q).Holds
      (l ++ items.take (q.capacity - l.length)) := by
  induction items generalizing q l with
  | nil =>
    rw [List.take_nil, List.append_nil]
    exact h
  | cons item items ih =>
    rw [List.foldl_cons]
    rcases Nat.lt_or_ge l.length q.capacity with hroom | hfull
    · obtain ⟨hpush, -, hcap⟩ := h.pushBack hroom item
      have hrest := ih hpush
      rw [hcap, List.length_append, List.length_singleton, List.append_assoc] at hrest
      rwa [show q.capacity - l.length = q.capacity - (l.length + 1) + 1 by omega,
        List.take_succ_cons]
    · have hrest := ih h
      rw [show q.capacity - l.length = 0 by omega, List.take_zero] at hrest ⊢
      rwa [h.pushBack_of_full hfull item]

/-- The contents are the elements that the buffer holds. -/
theorem contents_eq (h : q.Holds l) : q.contents = l := by
  refine List.ext_getElem? fun i ↦ ?_
  rw [contents, List.getElem?_map, h.size]
  rcases Nat.lt_or_ge i l.length with hi | hi
  · rw [List.getElem?_range hi, Option.map_some, List.getD_eq_getElem?_getD, h.slot i hi,
      List.getElem?_eq_getElem hi]
    rfl
  · rw [List.getElem?_eq_none (by rwa [List.length_range]), List.getElem?_eq_none hi]
    rfl

theorem holds_contents (h : q.Holds l) : q.Holds q.contents := by
  rw [h.contents_eq]
  exact h

end Holds

/-! ### Runs over several arrays -/

section Runs

variable {ι : Type*} [DecidableEq ι]

/-- An operation on one of several arrays, or from one into another. -/
inductive Op (ι α : Type*) where
  | pushBack (i : ι) (item : α)
  | popFront (i : ι)
  | clear (i : ι)
  /-- `Append` to the array `i`. -/
  | append (i j : ι) (hne : i ≠ j)

/-- What an operation returns. -/
inductive Result (α : Type*) where
  | none
  | item (item : α)
  | flag (flag : Bool)
  deriving DecidableEq, Repr

/-- An operation on one array of the family, or on two of them. -/
def step (q : ι → LoopArray α) : Op ι α → (ι → LoopArray α) × Result α
  | .pushBack i item =>
    (Function.update q i ((q i).pushBack item).1, .flag ((q i).pushBack item).2)
  | .popFront i => (Function.update q i (q i).popFront.1, .item (q i).popFront.2)
  | .clear i => (Function.update q i (q i).clear, .none)
  | .append i j _ =>
    let moved := (q i).append (q j)
    (Function.update (Function.update q i moved.1) j moved.2.1, .flag moved.2.2)

/-- The operation on lists that have a greatest length. -/
def listStep (capacity : ι → ℕ) (l : ι → List α) : Op ι α → (ι → List α) × Result α
  | .pushBack i item =>
    if (l i).length < capacity i then (Function.update l i (l i ++ [item]), .flag true)
    else (l, .flag false)
  | .popFront i =>
    match l i with
    | [] => (l, .item default)
    | item :: rest => (Function.update l i rest, .item item)
  | .clear i => (Function.update l i [], .none)
  | .append i j _ =>
    let n := min (capacity i - (l i).length) (l j).length
    (Function.update (Function.update l i (l i ++ (l j).take n)) j ((l j).drop n),
      .flag (decide (0 < n)))

/-- A sequence of operations, with what they return. -/
def runWith {σ : Type*} (step : σ → Op ι α → σ × Result α) : σ → List (Op ι α) → σ × List (Result α)
  | s, [] => (s, [])
  | s, op :: ops =>
    let after := runWith step (step s op).1 ops
    (after.1, (step s op).2 :: after.2)

/-- Each array holds its list, and has its capacity. -/
def HoldsAll (capacity : ι → ℕ) (q : ι → LoopArray α) (l : ι → List α) : Prop :=
  ∀ i, (q i).Holds (l i) ∧ (q i).capacity = capacity i

variable {capacity : ι → ℕ} {qs : ι → LoopArray α} {ls : ι → List α}

omit [Inhabited α] in
/-- A family of queues still holds its lists when one queue and its list are replaced together. -/
private theorem HoldsAll.update (h : HoldsAll capacity qs ls) {i : ι} {q : LoopArray α}
    {l : List α} (hq : q.Holds l) (hcap : q.capacity = capacity i) :
    HoldsAll capacity (Function.update qs i q) (Function.update ls i l) := by
  intro j
  rcases eq_or_ne j i with rfl | hne
  · rw [Function.update_self, Function.update_self]
    exact ⟨hq, hcap⟩
  · rw [Function.update_of_ne hne, Function.update_of_ne hne]
    exact h j

/-- **One operation** on the arrays is the operation on their lists. -/
theorem step_refines (h : HoldsAll capacity qs ls) (op : Op ι α) :
    (step qs op).2 = (listStep capacity ls op).2 ∧
      HoldsAll capacity (step qs op).1 (listStep capacity ls op).1 := by
  cases op with
  | pushBack i item =>
    obtain ⟨hi, hcap⟩ := h i
    simp only [step, listStep]
    rcases Nat.lt_or_ge (ls i).length (capacity i) with hroom | hfull
    · obtain ⟨hpush, hflag, hcap'⟩ := hi.pushBack (hroom.trans_eq hcap.symm) item
      rw [if_pos hroom, hflag]
      exact ⟨rfl, h.update hpush (hcap'.trans hcap)⟩
    · rw [hi.pushBack_of_full (hcap.trans_le hfull), if_neg hfull.not_gt,
        Function.update_eq_self]
      exact ⟨rfl, h⟩
  | popFront i =>
    obtain ⟨hi, hcap⟩ := h i
    simp only [step, listStep]
    rcases hl : ls i with _ | ⟨item, rest⟩
    · rw [hl] at hi
      rw [hi.popFront_nil, Function.update_eq_self]
      exact ⟨rfl, h⟩
    · rw [hl] at hi
      obtain ⟨hpop, hitem, hcap'⟩ := hi.popFront_cons
      rw [hitem]
      exact ⟨rfl, h.update hpop (hcap'.trans hcap)⟩
  | clear i =>
    obtain ⟨hi, hcap⟩ := h i
    exact ⟨rfl, h.update hi.clear hcap⟩
  | append i j hne =>
    obtain ⟨hi, hicap⟩ := h i
    obtain ⟨hj, hjcap⟩ := h j
    obtain ⟨hmoved, hrest, hflag, hicap', hjcap'⟩ := hi.append hj
    rw [hicap] at hmoved hrest hflag
    simp only [step, listStep]
    rw [← List.take_eq_take_min, ← List.drop_eq_drop_min, hflag]
    refine ⟨?_, (h.update hmoved (hicap'.trans hicap)).update hrest (hjcap'.trans hjcap)⟩
    have hpos : ls j ≠ [] ↔ 0 < (ls j).length := List.length_pos_iff.symm
    refine congrArg Result.flag (decide_eq_decide.2 ?_)
    rw [hpos]
    omega

/-- **Any sequence of operations** on a family of queues returns what the lists return, and leaves
queues that hold the lists. -/
theorem runWith_refines (h : HoldsAll capacity qs ls) (ops : List (Op ι α)) :
    (runWith step qs ops).2 = (runWith (listStep capacity) ls ops).2 ∧
      HoldsAll capacity (runWith step qs ops).1 (runWith (listStep capacity) ls ops).1 := by
  induction ops generalizing qs ls with
  | nil => exact ⟨rfl, h⟩
  | cons op ops ih =>
    obtain ⟨hresult, hstep⟩ := step_refines h op
    obtain ⟨hresults, hrun⟩ := ih hstep
    refine ⟨?_, hrun⟩
    simp only [runWith, hresult, hresults]

/-- What an array that holds a list looks like. -/
theorem Holds.shape {q : LoopArray α} {l : List α} (h : q.Holds l) :
    q.contents = l ∧ q.size = l.length ∧ l.length ≤ q.capacity ∧ q.head < q.capacity ∧
      q.tail < q.capacity ∧ (q.head + q.size) % q.capacity = q.tail := by
  refine ⟨h.contents_eq, h.size, h.size ▸ h.size_le, h.head_lt, ?_, h.tail.symm⟩
  rw [h.tail]
  exact Nat.mod_lt _ h.capacity_pos

/-- **Loop arrays are lists with a greatest length**, in every run over arrays that begin empty. -/
theorem run_new {bufsize : ι → ℕ} (hsize : ∀ i, 1 ≤ bufsize i) (memory : ι → ℕ → α)
    (ops : List (Op ι α)) :
    let q := runWith step (fun i ↦ new (memory i) (bufsize i)) ops
    let l := runWith (listStep bufsize) (fun _ ↦ []) ops
    q.2 = l.2 ∧ ∀ i, (q.1 i).capacity = bufsize i ∧ (q.1 i).contents = l.1 i ∧
      (q.1 i).size = (l.1 i).length ∧ (l.1 i).length ≤ bufsize i ∧
      (q.1 i).head < bufsize i ∧ (q.1 i).tail < bufsize i ∧
      ((q.1 i).head + (q.1 i).size) % bufsize i = (q.1 i).tail := by
  have hnew : HoldsAll bufsize (fun i ↦ new (memory i) (bufsize i)) fun _ ↦ [] := fun i ↦
    ⟨holds_new (memory i) (bufsize i), if_neg (Nat.not_lt.2 (hsize i))⟩
  obtain ⟨hresults, hholds⟩ := runWith_refines hnew ops
  refine ⟨hresults, fun i ↦ ?_⟩
  obtain ⟨hi, hcap⟩ := hholds i
  have hshape := hi.shape
  rw [hcap] at hshape
  exact ⟨hcap, hshape⟩

/-- Two arrays, of which the second takes what the first had to leave. -/
theorem run_new_two :
    let ops : List (Op Bool ℕ) :=
      [.pushBack true 1, .pushBack true 2, .pushBack true 3, .popFront true, .pushBack true 4,
        .append false true Bool.false_ne_true, .popFront false]
    let q := runWith step (fun i ↦ new (fun _ ↦ 0) (if i then 3 else 2)) ops
    let l := runWith (listStep fun i ↦ if i then 3 else 2) (fun _ ↦ []) ops
    q.2 = l.2 ∧ ∀ i : Bool, (q.1 i).capacity = (if i then 3 else 2) ∧ (q.1 i).contents = l.1 i ∧
      (q.1 i).size = (l.1 i).length ∧ (l.1 i).length ≤ (if i then 3 else 2) ∧
      (q.1 i).head < (if i then 3 else 2) ∧ (q.1 i).tail < (if i then 3 else 2) ∧
      ((q.1 i).head + (q.1 i).size) % (if i then 3 else 2) = (q.1 i).tail :=
  run_new (by decide) (fun _ _ ↦ 0) _

end Runs

end LoopArray

end QCLib
