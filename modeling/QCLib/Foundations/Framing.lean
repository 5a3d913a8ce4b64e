import Mathlib.Data.List.Basic

/-!
# Reading frames out of a byte stream

A `Reader` cuts frames `μ` off the front of a buffer of symbols `α`: `ready` says that a whole frame
has arrived, and `take` cuts it off, or is undefined. What arrives later does not change either.

A receiver appends each chunk to its buffer and takes frames while there are any. `Reads` is any
number of turns of that loop, and `Drains` is the loop up to its end. `Delivers` is a whole history
of chunks, and `Receives` one up to any point of it.

Two results: cutting does not matter, since chunks deliver what their concatenation drains to
(`delivers_iff`, `receives_iff`); and the loop ends exactly when every frame it meets makes the
buffer shorter (`exists_drains_iff`).

The library is generic in the symbols and the frames, and its two assumptions are fields of
`Reader`: a frame that is complete stays complete when more arrives, and what is cut off is the
same. A receiver that meets them may be given its bytes in any portions. The packets of the network
code are one instance (`packets`), the blocks of a checksum another (`drains_blocksOf`).

A reader may be stuck: `take` may be undefined on a buffer that is ready, or return a frame that
takes no symbol. Both are part of the theory, since the code here meets them on some inputs;
`exists_drains_iff` says exactly when a buffer can be drained.
-/

namespace Framing

/-- A way of cutting frames off a buffer that is stable under later arrivals. -/
structure Reader (α μ : Type*) where
  ready : List α → Bool
  take : List α → Option (μ × List α)
  ready_append : ∀ b c, ready b = true → ready (b ++ c) = true
  take_append : ∀ b c, ready b = true →
    take (b ++ c) = (take b).map fun r ↦ (r.1, r.2 ++ c)

namespace Reader

variable {α μ : Type*} (R : Reader α μ)

/-- Some turns of the loop: the frames they take off `b`, in order, and what they leave. -/
inductive Reads : List α → List μ → List α → Prop
  | nil (b) : Reads b [] b
  | cons {b m b' ms r} : R.ready b = true → R.take b = some (m, b') → Reads b' ms r →
    Reads b (m :: ms) r

/-- The loop up to its end. -/
def Drains (b : List α) (ms : List μ) (r : List α) : Prop := R.Reads b ms r ∧ R.ready r = false

/-- A history: chunks arrive at the buffer `b`, each when the loop over what came before has
ended. -/
inductive Delivers : List α → List (List α) → List μ → List α → Prop
  | nil (b) : Delivers b [] [] b
  | cons {b c ms r chunks ms' r'} : R.Drains (b ++ c) ms r → Delivers r chunks ms' r' →
    Delivers b (c :: chunks) (ms ++ ms') r'

/-- A point of a history: the frames taken so far, and the buffer then. -/
inductive Receives : List α → List (List α) → List μ → List α → Prop
  | nil (b chunks) : Receives b chunks [] b
  | loop {b c chunks ms r} : R.Reads (b ++ c) ms r → Receives b (c :: chunks) ms r
  | cons {b c ms r chunks ms' r'} : R.Drains (b ++ c) ms r → Receives r chunks ms' r' →
    Receives b (c :: chunks) (ms ++ ms') r'

variable {R} {b b' c r r' : List α} {m : μ} {ms ms' : List μ} {chunks : List (List α)}

theorem Reads.trans (h : R.Reads b ms r) (h' : R.Reads r ms' r') : R.Reads b (ms ++ ms') r' := by
  induction h with
  | nil => exact h'
  | cons hready htake _ ih => exact .cons hready htake (ih h')

theorem Reads.single (hready : R.ready b = true) (htake : R.take b = some (m, r)) :
    R.Reads b [m] r :=
  .cons hready htake (.nil r)

/-- Later arrivals stay behind. -/
theorem Reads.append (h : R.Reads b ms r) (c : List α) : R.Reads (b ++ c) ms (r ++ c) := by
  induction h with
  | nil b => exact .nil _
  | cons hready htake _ ih =>
    refine .cons (R.ready_append _ c hready) ?_ ih
    rw [R.take_append _ c hready, htake]
    rfl

/-- The loop goes on from wherever it has got to. -/
theorem Drains.of_reads (h : R.Drains b ms r) (h' : R.Reads b ms' r') :
    ∃ ms'', ms = ms' ++ ms'' ∧ R.Drains r' ms'' r := by
  induction h' generalizing ms with
  | nil => exact ⟨ms, rfl, h⟩
  | cons hready htake _ ih =>
    obtain ⟨hreads, hend⟩ := h
    cases hreads with
    | nil =>
      rw [hready] at hend
      exact absurd hend (by decide)
    | cons hready' htake' hrest =>
      obtain ⟨rfl, rfl⟩ := Prod.mk.inj (Option.some.inj (htake'.symm.trans htake))
      obtain ⟨ms'', rfl, hdrains⟩ := ih ⟨hrest, hend⟩
      exact ⟨ms'', rfl, hdrains⟩

/-- The loop over a buffer has one outcome, since what it takes is a function of the buffer. -/
theorem Drains.unique (h : R.Drains b ms r) (h' : R.Drains b ms' r') : ms = ms' ∧ r = r' := by
  obtain ⟨ms'', rfl, hrest, hend⟩ := h.of_reads h'.1
  cases hrest with
  | nil => exact ⟨List.append_nil _, rfl⟩
  | cons hready =>
    rw [h'.2] at hready
    exact absurd hready (by decide)

theorem drains_iff_of_not_ready (hready : R.ready b = false) :
    R.Drains b ms r ↔ ms = [] ∧ r = b := by
  constructor
  · intro h
    exact h.unique ⟨.nil b, hready⟩
  · intro ⟨hms, hr⟩
    subst hms hr
    exact ⟨.nil _, hready⟩

/-- A buffer that is ready is drained by taking a message and draining the rest. -/
theorem drains_iff_of_ready (hready : R.ready b = true) : R.Drains b ms r ↔
    ∃ m b' ms', R.take b = some (m, b') ∧ ms = m :: ms' ∧ R.Drains b' ms' r := by
  constructor
  · intro ⟨hreads, hend⟩
    cases hreads with
    | nil =>
      rw [hready] at hend
      exact absurd hend (by decide)
    | cons _ htake hrest => exact ⟨_, _, _, htake, rfl, hrest, hend⟩
  · intro ⟨m, b', ms', htake, hms, h⟩
    subst hms
    exact ⟨.cons hready htake h.1, h.2⟩

/-- A buffer that is drained first goes the same way when more arrives. -/
theorem Drains.append (h : R.Drains b ms r) (h' : R.Drains (r ++ c) ms' r') :
    R.Drains (b ++ c) (ms ++ ms') r' :=
  ⟨(h.1.append c).trans h'.1, h'.2⟩

/-- **Splitting.** The loop over everything either is still in the part that arrived first, or has
drained that part before. -/
theorem Reads.split (h : R.Reads (b ++ c) ms r) :
    (∃ r₁, R.Reads b ms r₁ ∧ r = r₁ ++ c) ∨
      ∃ ms₁ ms₂ r₁, ms = ms₁ ++ ms₂ ∧ R.Drains b ms₁ r₁ ∧ R.Reads (r₁ ++ c) ms₂ r := by
  induction ms generalizing b with
  | nil =>
    cases h
    exact Or.inl ⟨b, .nil b, rfl⟩
  | cons m ms ih =>
    cases hready : R.ready b with
    | false => exact Or.inr ⟨[], m :: ms, b, rfl, ⟨.nil b, hready⟩, h⟩
    | true =>
      cases h with
      | cons _ htake hrest =>
        rw [R.take_append b c hready] at htake
        obtain ⟨⟨m', b'⟩, htake', heq⟩ := Option.map_eq_some_iff.1 htake
        obtain ⟨rfl, rfl⟩ := Prod.mk.inj heq
        rcases ih hrest with ⟨r₁, hreads, rfl⟩ | ⟨ms₁, ms₂, r₁, rfl, hdrains, hreads⟩
        · exact Or.inl ⟨r₁, .cons hready htake' hreads, rfl⟩
        · exact Or.inr ⟨m' :: ms₁, ms₂, r₁, rfl, ⟨.cons hready htake' hdrains.1, hdrains.2⟩, hreads⟩

/-- Where everything drains, the part that arrived first drains before. -/
theorem Drains.split (h : R.Drains (b ++ c) ms r) :
    ∃ ms₁ ms₂ r₁, ms = ms₁ ++ ms₂ ∧ R.Drains b ms₁ r₁ ∧ R.Drains (r₁ ++ c) ms₂ r := by
  rcases h.1.split with ⟨r₁, hreads, rfl⟩ | ⟨ms₁, ms₂, r₁, hms, hdrains, hreads⟩
  · refine ⟨ms, [], r₁, (List.append_nil ms).symm, ⟨hreads, ?_⟩, .nil _, h.2⟩
    by_contra hready
    have := R.ready_append r₁ c (Bool.of_not_eq_false hready)
    rw [h.2] at this
    exact absurd this (by decide)
  · exact ⟨ms₁, ms₂, r₁, hms, hdrains, hreads, h.2⟩

/-- A buffer of encoded frames drains to the frames. -/
theorem drains_flatMap {enc : μ → List α} (hnil : R.ready [] = false)
    (henc : ∀ m ∈ ms, ∀ c, R.ready (enc m ++ c) = true ∧ R.take (enc m ++ c) = some (m, c)) :
    R.Drains (ms.flatMap enc) ms [] := by
  refine ⟨?_, hnil⟩
  induction ms with
  | nil => exact .nil []
  | cons m ms ih =>
    obtain ⟨hready, htake⟩ := henc m List.mem_cons_self (ms.flatMap enc)
    rw [List.flatMap_cons]
    exact .cons hready htake (ih fun m' hm' ↦ henc m' (List.mem_cons_of_mem _ hm'))

/-! ### Termination -/

/-- A frame that takes nothing off the buffer is taken for ever, so such a buffer cannot be drained.
-/
theorem not_drains_of_stuck (hready : R.ready b = true) (htake : R.take b = some (m, b)) :
    ¬ R.Drains b ms r := by
  intro h
  obtain ⟨ms', hms, h'⟩ := h.of_reads (.single hready htake)
  have hlen := congrArg List.length (hms.symm.trans (h.unique h').1)
  rw [List.length_append, List.length_singleton] at hlen
  omega

/-- **Termination.** Where taking a frame leaves the buffer as it is or makes it shorter, the loop
ends if and only if every frame it meets can be taken and makes the buffer shorter. -/
theorem exists_drains_iff
    (hle : ∀ r m r', R.ready r = true → R.take r = some (m, r') → r' = r ∨ r'.length < r.length) :
    (∃ ms r, R.Drains b ms r) ↔ ∀ ms r, R.Reads b ms r → R.ready r = true →
      ∃ m r', R.take r = some (m, r') ∧ r'.length < r.length := by
  constructor
  · intro ⟨ms, r, h⟩ ms' r' hreads hready
    obtain ⟨ms'', -, h'⟩ := h.of_reads hreads
    obtain ⟨m, b', -, htake, -⟩ := (drains_iff_of_ready hready).1 h'
    refine ⟨m, b', htake, (hle r' m b' hready htake).resolve_left fun heq ↦ ?_⟩
    subst heq
    exact not_drains_of_stuck hready htake h'
  · intro hshort
    induction hn : b.length using Nat.strongRecOn generalizing b with
    | ind n ih =>
      cases hready : R.ready b with
      | false => exact ⟨[], b, .nil b, hready⟩
      | true =>
        obtain ⟨m, b', htake, hlt⟩ := hshort [] b (.nil b) hready
        obtain ⟨ms, r, h⟩ := ih b'.length (by omega)
          (fun ms r h ↦ hshort _ r (.cons hready htake h)) rfl
        exact ⟨m :: ms, r, .cons hready htake h.1, h.2⟩

/-- So a buffer that drains holds no more frames than symbols. -/
theorem Drains.length_le
    (hle : ∀ r m r', R.ready r = true → R.take r = some (m, r') → r' = r ∨ r'.length < r.length)
    (h : R.Drains b ms r) : ms.length ≤ b.length := by
  obtain ⟨hreads, hend⟩ := h
  induction hreads with
  | nil => exact Nat.zero_le _
  | @cons b m b' ms r hready htake hrest ih =>
    rcases hle b m b' hready htake with heq | hlt
    · subst heq
      exact absurd ⟨hrest, hend⟩ (not_drains_of_stuck hready htake)
    · have := ih hend
      rw [List.length_cons]
      omega

/-! ### Chunks -/

/-- **Cutting does not matter.** Chunks deliver what their bytes would deliver in one piece, as long
as the buffer before them has no complete frame in it. -/
theorem delivers_iff (hb : R.ready b = false) :
    R.Delivers b chunks ms r ↔ R.Drains (b ++ chunks.flatten) ms r := by
  constructor
  · intro h
    induction h with
    | nil b =>
      rw [List.flatten_nil, List.append_nil]
      exact ⟨.nil b, hb⟩
    | cons hdrains _ ih =>
      rw [List.flatten_cons, ← List.append_assoc]
      exact hdrains.append (ih hdrains.2)
  · intro h
    induction chunks generalizing b ms with
    | nil =>
      rw [List.flatten_nil, List.append_nil] at h
      obtain ⟨rfl, rfl⟩ := h.unique ⟨.nil b, hb⟩
      exact .nil _
    | cons c chunks ih =>
      rw [List.flatten_cons, ← List.append_assoc] at h
      obtain ⟨ms₁, ms₂, r₁, rfl, h₁, h₂⟩ := h.split
      exact .cons h₁ (ih h₁.2 h₂)

theorem Delivers.receives (h : R.Delivers b chunks ms r) : R.Receives b chunks ms r := by
  induction h with
  | nil b => exact .nil b []
  | cons hdrains _ ih => exact .cons hdrains ih

/-- **Nor does it matter before the end.** Some frames have been taken at some point of a history
if and only if the loop over everything takes them. -/
theorem receives_iff (hb : R.ready b = false) :
    (∃ r, R.Receives b chunks ms r) ↔ ∃ r, R.Reads (b ++ chunks.flatten) ms r := by
  constructor
  · intro ⟨r, h⟩
    induction h with
    | nil b chunks => exact ⟨_, .nil _⟩
    | @loop b c chunks ms r h =>
      rw [List.flatten_cons, ← List.append_assoc]
      exact ⟨_, h.append chunks.flatten⟩
    | @cons b c ms r chunks ms' r' hdrains _ ih =>
      obtain ⟨r'', h⟩ := ih hdrains.2
      rw [List.flatten_cons, ← List.append_assoc]
      exact ⟨r'', (hdrains.1.append chunks.flatten).trans h⟩
  · intro ⟨r, h⟩
    induction chunks generalizing b ms with
    | nil =>
      rw [List.flatten_nil, List.append_nil] at h
      cases h with
      | nil => exact ⟨_, .nil _ []⟩
      | cons hready =>
        rw [hb] at hready
        exact absurd hready (by decide)
    | cons c chunks ih =>
      rw [List.flatten_cons, ← List.append_assoc] at h
      rcases h.split with ⟨r₁, hreads, -⟩ | ⟨ms₁, ms₂, r₁, rfl, hdrains, hreads⟩
      · exact ⟨r₁, .loop hreads⟩
      · obtain ⟨r', h'⟩ := ih hdrains.2 hreads
        exact ⟨r', .cons hdrains h'⟩

/-- Every frame was taken off the buffer at some earlier point. -/
theorem Reads.exists_taken (h : R.Reads b ms r) (hm : m ∈ ms) :
    ∃ ms₀ r₀ r₁, R.Reads b ms₀ r₀ ∧ R.ready r₀ = true ∧ R.take r₀ = some (m, r₁) := by
  induction h with
  | nil => simp at hm
  | @cons b m' b' ms r hready htake _ ih =>
    rcases List.mem_cons.1 hm with rfl | hm
    · exact ⟨[], b, b', .nil b, hready, htake⟩
    · obtain ⟨ms₀, r₀, r₁, hreads, htaken⟩ := ih hm
      exact ⟨m' :: ms₀, r₀, r₁, .cons hready htake hreads, htaken⟩

end Reader

end Framing
