import Mathlib.Logic.Function.Basic
import Mathlib.Tactic.SplitIfs

/-!
# Interest boards

The general idea behind area-of-interest management, with no geometry in it. Identities `ι` are
registered at places `τ`, each either as an *object*, which is only seen, or as a *watcher*, which
also looks. A relation `near s t` says that a watcher standing at `s` looks at `t`; nothing is
assumed of it until the section on mutual sight, where it is symmetric.

A `Board` is the whole state: who is registered, in which role, and where. Everything an
implementation maintains incrementally is a *view* of the board:

* `At i t` — the identity is registered at the place;
* `Watches near i t` — the identity looks at the place;
* `Sees near w i` — `w` looks at the place where another identity `i` is registered.

The lemmas below say how each view changes when one identity is put somewhere or taken away, which
is all that a delta-emitting implementation can be checked against.

Two groups of facts, then. The first is about one identity that is put or removed: who watches what
(`watches_put_watcher`, `watches_remove`), who is seen (`sees_put_self`, `sees_put_of_ne`,
`sees_remove`). The second is about *meeting*, being at places near each other whatever the roles,
which is symmetric where `near` is (`Meets.symm`), and which mutual view lists are compared with.

Nothing here is computable, and nothing needs to be: a board is never built, only compared with.
-/

namespace Interest

/-- How an identity is registered: only seen, or looking as well. -/
inductive Role where
  | watcher
  | object
  deriving DecidableEq, Repr

/-- Who is registered, in which role, and at which place. -/
abbrev Board (ι τ : Type*) := ι → Option (Role × τ)

namespace Board

variable {ι τ : Type*}

/-- The board on which nobody is registered. -/
def empty : Board ι τ := fun _ ↦ none

/-- Register an identity at a place, moving it there if it was registered elsewhere. -/
def put [DecidableEq ι] (B : Board ι τ) (i : ι) (r : Role) (t : τ) : Board ι τ :=
  Function.update B i (some (r, t))

/-- Take an identity off the board. -/
def remove [DecidableEq ι] (B : Board ι τ) (i : ι) : Board ι τ :=
  Function.update B i none

/-- The identity is registered at the place. -/
def At (B : Board ι τ) (i : ι) (t : τ) : Prop := ∃ r, B i = some (r, t)

/-- The identity is registered as a watcher whose place looks at `t`. -/
def Watches (near : τ → τ → Prop) (B : Board ι τ) (i : ι) (t : τ) : Prop :=
  ∃ s, B i = some (.watcher, s) ∧ near s t

/-- The watcher `w` looks at the place of another registered identity. -/
def Sees (near : τ → τ → Prop) (B : Board ι τ) (w i : ι) : Prop :=
  i ≠ w ∧ ∃ t, B.At i t ∧ B.Watches near w t

/-- The identity is registered somewhere that the place `t` looks at. -/
def Within (near : τ → τ → Prop) (B : Board ι τ) (t : τ) (i : ι) : Prop :=
  ∃ s, B.At i s ∧ near t s

variable {near : τ → τ → Prop} {B : Board ι τ} {i j w : ι} {r : Role} {s t : τ}

theorem at_of_eq (h : B i = some (r, t)) : B.At i t := ⟨r, h⟩

/-- A registered identity is at one place only. -/
theorem at_iff_of_eq (h : B i = some (r, t)) : B.At i s ↔ s = t := by
  constructor
  · rintro ⟨r', h'⟩
    have := h.symm.trans h'
    simp_all
  · rintro rfl
    exact ⟨r, h⟩

theorem not_at_of_none (h : B i = none) : ¬ B.At i t := by
  rintro ⟨r, h'⟩
  simp_all

theorem exists_at_iff : (∃ t, B.At i t) ↔ B i ≠ none := by
  rw [Option.ne_none_iff_exists']
  constructor
  · intro ⟨t, r, h⟩
    exact ⟨(r, t), h⟩
  · intro ⟨rt, h⟩
    exact ⟨rt.2, rt.1, h⟩

theorem not_watches_of_none (h : B i = none) : ¬ B.Watches near i t := by
  rintro ⟨s, h', -⟩
  simp_all

theorem not_watches_of_object (h : B i = some (.object, s)) : ¬ B.Watches near i t := by
  rintro ⟨s', h', -⟩
  simp_all

/-- A registered watcher looks exactly at what is near its place. -/
theorem watches_iff_of_eq (h : B i = some (.watcher, s)) : B.Watches near i t ↔ near s t := by
  constructor
  · rintro ⟨s', h', hn⟩
    have := h.symm.trans h'
    simp_all
  · exact fun hn ↦ ⟨s, h, hn⟩

/-- Whoever is registered is seen by exactly the others that watch its place. -/
theorem sees_iff_of_eq (h : B i = some (r, t)) :
    B.Sees near w i ↔ i ≠ w ∧ B.Watches near w t := by
  constructor
  · rintro ⟨hne, t', hat, hw⟩
    obtain rfl := (at_iff_of_eq h).1 hat
    exact ⟨hne, hw⟩
  · rintro ⟨hne, hw⟩
    exact ⟨hne, t, at_of_eq h, hw⟩

/-- A registered watcher sees exactly the others registered near its place. -/
theorem sees_iff_of_watcher (h : B w = some (.watcher, s)) :
    B.Sees near w i ↔ i ≠ w ∧ B.Within near s i := by
  simp only [Sees, Within, watches_iff_of_eq h]

theorem not_sees_of_none (h : B i = none) : ¬ B.Sees near w i := by
  rintro ⟨-, t, hat, -⟩
  exact not_at_of_none h hat

@[simp] theorem empty_apply (i : ι) : (empty : Board ι τ) i = none := rfl

/-! ### Putting and removing one identity -/

section Update

variable [DecidableEq ι]

@[simp] theorem put_self : B.put i r t i = some (r, t) := by
  simp [put]

@[simp] theorem put_of_ne (h : j ≠ i) : B.put i r t j = B j := by
  simp [put, h]

@[simp] theorem remove_self : B.remove i i = none := by
  simp [remove]

@[simp] theorem remove_of_ne (h : j ≠ i) : B.remove i j = B j := by
  simp [remove, h]

/-- Putting an identity where it already is changes nothing. -/
theorem put_eq_self (h : B i = some (r, t)) : B.put i r t = B := by
  simp [put, ← h]

@[simp] theorem put_remove : (B.remove i).put i r t = B.put i r t := by
  simp [put, remove]

theorem at_put : (B.put i r t).At j s ↔ if j = i then s = t else B.At j s := by
  split_ifs with h
  · subst h
    exact at_iff_of_eq put_self
  · simp [At, h]

theorem at_remove : (B.remove i).At j s ↔ j ≠ i ∧ B.At j s := by
  by_cases h : j = i
  · subst h
    simp [not_at_of_none]
  · simp [At, h]

/-- Whether another is within reach of a place does not depend on who was put down. -/
theorem within_put_of_ne (h : j ≠ i) :
    (B.put i r t).Within near s j ↔ B.Within near s j := by
  simp [Within, at_put, h]

theorem within_remove : (B.remove i).Within near s j ↔ j ≠ i ∧ B.Within near s j := by
  by_cases h : j = i <;> simp [Within, at_remove, h]

/-- What the others watch does not change with somebody who was put down. -/
theorem watches_put_of_ne (h : j ≠ i) :
    (B.put i r t).Watches near j s ↔ B.Watches near j s := by
  simp [Watches, h]

theorem watches_put_watcher :
    (B.put i .watcher t).Watches near j s ↔ if j = i then near t s else B.Watches near j s := by
  split_ifs with h
  · subst h
    exact watches_iff_of_eq put_self
  · exact watches_put_of_ne h

/-- A new object watches nothing, even if it was a watcher before. -/
theorem watches_put_object :
    (B.put i .object t).Watches near j s ↔ j ≠ i ∧ B.Watches near j s := by
  by_cases h : j = i
  · subst h
    simp [not_watches_of_object put_self]
  · simp [watches_put_of_ne h, h]

theorem watches_remove : (B.remove i).Watches near j s ↔ j ≠ i ∧ B.Watches near j s := by
  by_cases h : j = i
  · subst h
    simp [not_watches_of_none]
  · simp [Watches, h]

/-- **What another watcher sees after a put**: the identity itself exactly when the watcher looks
at the new place, and everybody else as before. -/
theorem sees_put_of_ne (h : w ≠ i) :
    (B.put i r t).Sees near w j ↔ if j = i then B.Watches near w t else B.Sees near w j := by
  simp only [Sees, watches_put_of_ne h, at_put]
  split_ifs with hj
  · subst hj
    simp [Ne.symm h]
  · rfl

/-- **What the moved watcher itself sees**: everybody else near its new place. -/
theorem sees_put_self :
    (B.put w .watcher t).Sees near w j ↔ j ≠ w ∧ B.Within near t j := by
  rw [sees_iff_of_watcher put_self]
  exact and_congr_right within_put_of_ne

/-- **What a watcher sees after a removal**: everybody it saw but the removed one. -/
theorem sees_remove : (B.remove i).Sees near w j ↔ w ≠ i ∧ j ≠ i ∧ B.Sees near w j := by
  simp only [Sees, at_remove, watches_remove]
  constructor
  · rintro ⟨hne, s, ⟨hj, hat⟩, hw, hws⟩
    exact ⟨hw, hj, hne, s, hat, hws⟩
  · rintro ⟨hw, hj, hne, s, hat, hws⟩
    exact ⟨hne, s, ⟨hj, hat⟩, hw, hws⟩

end Update

/-! ### Mutual sight

When looking is symmetric between places, two watchers see each other or neither does. This is what
lets a pair of mutual lists be kept consistent from one-sided deltas. `Meets` is the symmetric form,
for boards on which everybody watches. -/

/-- Two identities, possibly one and the same, are registered at places near each other. -/
def Meets (near : τ → τ → Prop) (B : Board ι τ) (i j : ι) : Prop :=
  ∃ s t, B.At i s ∧ B.At j t ∧ near s t

/-- Everybody on the board watches. -/
def AllWatch (B : Board ι τ) : Prop := ∀ i r t, B i = some (r, t) → r = .watcher

/-- **Meeting is mutual** where being near is. -/
theorem Meets.symm (hsymm : ∀ s t, near s t → near t s) (h : B.Meets near i j) :
    B.Meets near j i := by
  obtain ⟨s, t, hi, hj, hn⟩ := h
  exact ⟨t, s, hj, hi, hsymm s t hn⟩

/-- Among watchers, watching a place is standing near it. -/
theorem AllWatch.watches_iff (hB : B.AllWatch) : B.Watches near i t ↔ ∃ s, B.At i s ∧ near s t := by
  constructor
  · intro ⟨s, hs, hn⟩
    exact ⟨s, ⟨.watcher, hs⟩, hn⟩
  · intro ⟨s, ⟨r, hs⟩, hn⟩
    obtain rfl := hB i r s hs
    exact ⟨s, hs, hn⟩

theorem meets_iff_of_eq (h : B i = some (r, s)) : B.Meets near i j ↔ B.Within near s j := by
  constructor
  · intro ⟨s', t, hi, hj, hn⟩
    obtain rfl := (at_iff_of_eq h).1 hi
    exact ⟨t, hj, hn⟩
  · intro ⟨t, hj, hn⟩
    exact ⟨s, t, at_of_eq h, hj, hn⟩

theorem not_meets_of_none (h : B i = none) : ¬ B.Meets near i j := by
  intro ⟨_, _, hi, _⟩
  exact not_at_of_none h hi

section Update

variable [DecidableEq ι]

/-- Participants who were not moved meet as before. -/
theorem meets_put_of_ne (hj : j ≠ i) (hw : w ≠ i) :
    (B.put i r t).Meets near w j ↔ B.Meets near w j := by
  simp only [Meets, at_put, if_neg hj, if_neg hw]

theorem meets_put_self (hj : j ≠ i) : (B.put i r t).Meets near i j ↔ B.Within near t j := by
  rw [meets_iff_of_eq put_self, within_put_of_ne hj]

theorem meets_remove : (B.remove i).Meets near w j ↔ w ≠ i ∧ j ≠ i ∧ B.Meets near w j := by
  simp only [Meets, at_remove]
  constructor
  · intro ⟨s, t, ⟨hw, hs⟩, ⟨hj, ht⟩, hn⟩
    exact ⟨hw, hj, s, t, hs, ht, hn⟩
  · intro ⟨hw, hj, s, t, hs, ht, hn⟩
    exact ⟨s, t, ⟨hw, hs⟩, ⟨hj, ht⟩, hn⟩

end Update

end Board

end Interest
