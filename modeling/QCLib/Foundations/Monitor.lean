import Mathlib.Data.List.Basic
import QCLib.Foundations.StepRun

/-!
# Monitors

Data behind a mutex, with one condition variable. A thread that asks for something while there is
nothing waits, and when it has been woken it looks again: another thread may have been faster, or
nobody may have woken it at all. Whoever puts something in signals, which wakes one of the threads
that wait. A signal that nobody waits for is lost, so it is not clear that no thread sleeps on while
there is something for it.

It does not, when a `put` adds no more than one thread can take: `Awake`, which every step keeps
(`Awake.step`). With one thread alone it does not in any case (`Solitary.step`). And what is put in
is taken out in the same order (`history_step`).

A monitor is a record of functions on its data: what a `put` adds, what a `get` takes, and when a
`get` is ready. The threads are not part of it; the state has a list of those that wait and a list
of those that have been woken and not yet run. `Act` are the steps: a call that enters, a `put` with
its signal, a woken thread that runs, and a wakeup for no reason.

The assumptions come in two structures, so that each result asks only for what it uses: `Sized`,
that a `get` takes at least one element and a `put` adds at most one, and `Queues`, that what is
taken is the front of what is there.
-/

open StepRun

/-- What is protected, with what can be put in and asked for. -/
structure Monitor (τ ι κ α : Type*) where
  ready : τ → Bool
  put : τ → ι → τ
  take : τ → κ → α × τ

namespace Monitor

/-- The monitor, where only some things are asked for. -/
def restrict {τ ι κ α : Type*} (M : Monitor τ ι κ α) (ok : κ → Prop) :
    Monitor τ ι {k // ok k} α where
  ready := M.ready
  put := M.put
  take d k := M.take d k

/-- The data, who waits for what, who has been woken, and what has been taken out by whom. -/
structure State (T τ κ α : Type*) where
  data : τ
  waiting : List (T × κ) := []
  woken : List (T × κ) := []
  taken : List (T × α) := []

/-- What can happen; a `put` comes with the thread that its signal wakes. -/
inductive Act (T ι κ : Type*)
  | put (i : ι) (signalled : Option T)
  | get (t : T) (k : κ)
  | wake (t : T)
  | spurious (t : T)

variable {T τ ι κ α β : Type*} [DecidableEq T]

/-- Take a thread off a list. -/
def leave (t : T) : List (T × κ) → Option ((T × κ) × List (T × κ))
  | [] => none
  | p :: l => if p.1 = t then some (p, l) else (leave t l).map fun r ↦ (r.1, p :: r.2)

/-- What takes a thread off, leaves the others. -/
theorem length_of_leave {t : T} {l l' : List (T × κ)} {p : T × κ} (h : leave t l = some (p, l')) :
    l.length = l'.length + 1 ∧ p.1 = t := by
  induction l generalizing l' with
  | nil => cases h
  | cons q l ih =>
    rw [leave] at h
    split_ifs at h with hq
    · obtain ⟨rfl, rfl⟩ := Prod.mk.inj (Option.some.inj h)
      exact ⟨rfl, hq⟩
    · obtain ⟨⟨p', l''⟩, hleave, hr⟩ := Option.map_eq_some_iff.1 h
      obtain ⟨rfl, rfl⟩ := Prod.mk.inj hr
      obtain ⟨hlen, hp⟩ := ih hleave
      exact ⟨by rw [List.length_cons, hlen, List.length_cons], hp⟩

theorem exists_leave {l : List (T × κ)} {p : T × κ} (h : p ∈ l) : ∃ r, leave p.1 l = some r := by
  induction l with
  | nil => exact absurd h List.not_mem_nil
  | cons q l ih =>
    rw [leave]
    split_ifs with hq
    · exact ⟨_, rfl⟩
    · rcases List.mem_cons.1 h with rfl | h
      · exact absurd rfl hq
      · obtain ⟨r, hr⟩ := ih h
        exact ⟨_, by rw [hr]; rfl⟩

section Program

variable (M : Monitor τ ι κ α)

/-- A thread that holds the mutex takes what there is, or waits. -/
def enter (s : State T τ κ α) (t : T) (k : κ) : State T τ κ α :=
  if M.ready s.data then
    { s with data := (M.take s.data k).2, taken := s.taken ++ [(t, (M.take s.data k).1)] }
  else { s with waiting := s.waiting ++ [(t, k)] }

/-- One step. -/
def step (s : State T τ κ α) : Act T ι κ → Option (State T τ κ α)
  | .put i none => if s.waiting.isEmpty then some { s with data := M.put s.data i } else none
  | .put i (some t) => (leave t s.waiting).map fun r ↦
    { s with data := M.put s.data i, waiting := r.2, woken := s.woken ++ [r.1] }
  | .get t k =>
    if (leave t s.waiting).isNone ∧ (leave t s.woken).isNone then some (M.enter s t k) else none
  | .wake t => (leave t s.woken).map fun r ↦ M.enter { s with woken := r.2 } t r.1.2
  | .spurious t => (leave t s.waiting).map fun r ↦
    { s with waiting := r.2, woken := s.woken ++ [r.1] }

end Program

variable {M : Monitor τ ι κ α} {s s' : State T τ κ α} {a : Act T ι κ} {t : T} {k : κ}

/-! ### Nobody sleeps on -/

/-- How much there is to be taken: a `put` adds at most one, and a `take` removes one, at least. -/
structure Sized (M : Monitor τ ι κ α) (size : τ → ℕ) : Prop where
  ready_iff : ∀ d, M.ready d = true ↔ 0 < size d
  put_le : ∀ d i, size (M.put d i) ≤ size d + 1
  take_lt : ∀ d k, M.ready d = true → size (M.take d k).2 < size d

/-- While a thread waits, there is no more than what those who were woken will take. -/
def Awake (size : τ → ℕ) (s : State T τ κ α) : Prop :=
  s.waiting = [] ∨ size s.data ≤ s.woken.length

variable {size : τ → ℕ}

omit [DecidableEq T] in
/-- A call keeps the monitor awake, if the caller has reason to enter. -/
theorem Awake.enter (hM : Sized M size)
    (h : s.waiting = [] ∨ size s.data ≤ s.woken.length + 1) : Awake size (M.enter s t k) := by
  rw [Monitor.enter]
  split_ifs with hready
  · have hlt := hM.take_lt s.data k hready
    refine h.imp id fun hle ↦ ?_
    show size (M.take s.data k).2 ≤ s.woken.length
    omega
  · refine .inr ?_
    show size s.data ≤ s.woken.length
    rw [hM.ready_iff] at hready
    omega

/-- **One step keeps the monitor awake**: whoever waits while there is something to take has
somebody who was woken for it. -/
theorem Awake.step (hM : Sized M size) (h : Awake size s) (hs : M.step s a = some s') :
    Awake size s' := by
  cases a with
  | put i signalled =>
    cases signalled with
    | none =>
      simp only [Monitor.step] at hs
      split_ifs at hs with hempty
      obtain rfl := Option.some.inj hs
      exact .inl (List.isEmpty_iff.1 hempty)
    | some t =>
      obtain ⟨⟨p, l⟩, hleave, rfl⟩ := Option.map_eq_some_iff.1 hs
      have hput := hM.put_le s.data i
      refine h.elim (fun hnil ↦ ?_) fun hle ↦ .inr ?_
      · rw [hnil] at hleave
        cases hleave
      · show size (M.put s.data i) ≤ (s.woken ++ [p]).length
        rw [List.length_append, List.length_singleton]
        omega
  | get t k =>
    simp only [Monitor.step] at hs
    split_ifs at hs
    obtain rfl := Option.some.inj hs
    exact Awake.enter hM (h.imp_right Nat.le_succ_of_le)
  | wake t =>
    obtain ⟨⟨p, l⟩, hleave, rfl⟩ := Option.map_eq_some_iff.1 hs
    have hlen := (length_of_leave hleave).1
    exact Awake.enter hM (h.imp_right fun hle ↦ hlen ▸ hle)
  | spurious t =>
    obtain ⟨⟨p, l⟩, hleave, rfl⟩ := Option.map_eq_some_iff.1 hs
    refine h.elim (fun hnil ↦ ?_) fun hle ↦ .inr ?_
    · rw [hnil] at hleave
      cases hleave
    · show size s.data ≤ (s.woken ++ [p]).length
      rw [List.length_append]
      omega

/-- **Progress**: when there is something and somebody waits, a thread has been woken, and it will
take something as soon as it has the mutex. -/
theorem Awake.exists_wake (hM : Sized M size) (h : Awake size s) (hready : M.ready s.data = true)
    (hwaiting : s.waiting ≠ []) : ∃ p ∈ s.woken, ∃ s', M.step s (.wake p.1) = some s' ∧
      ∃ k, s'.taken = s.taken ++ [(p.1, (M.take s.data k).1)] ∧ s'.data = (M.take s.data k).2 := by
  have hpos := (hM.ready_iff s.data).1 hready
  have hle := h.resolve_left hwaiting
  obtain ⟨p, hp⟩ := List.exists_mem_of_length_pos (Nat.lt_of_lt_of_le hpos hle)
  obtain ⟨⟨q, l⟩, hleave⟩ := exists_leave hp
  refine ⟨p, hp, _, by rw [Monitor.step, hleave]; rfl, q.2, ?_⟩
  dsimp only
  rw [Monitor.enter, if_pos hready]
  exact ⟨rfl, rfl⟩

/-- **A run keeps the monitor awake**, from any state that is. -/
theorem Awake.run {l : List (Act T ι κ)} (hM : Sized M size) (h : Awake size s)
    (hrun : run M.step s l = some s') : Awake size s' :=
  run_inv (fun _ _ _ h _ hs ↦ h.step hM hs) h
    (guarded_of_forall (p := fun _ ↦ True) fun _ _ ↦ trivial) hrun

/-! ### One thread alone -/

/-- When there is one thread, and it cannot leave the list, the list is empty. -/
theorem eq_nil_of_leave [Subsingleton T] {l : List (T × κ)} (h : (leave t l).isNone) : l = [] := by
  cases l with
  | nil => rfl
  | cons p l =>
    rw [leave, if_pos (Subsingleton.elim _ _)] at h
    cases h

/-- A single thread waits for something, and there is nothing. -/
structure Solitary (M : Monitor τ ι κ α) (s : State T τ κ α) : Prop where
  length_le : s.waiting.length + s.woken.length ≤ 1
  asleep : s.waiting ≠ [] → M.ready s.data = false

omit [DecidableEq T] in
/-- A thread that was alone in the monitor is alone after its call. -/
theorem Solitary.enter (hwaiting : s.waiting = []) (hwoken : s.woken = []) :
    Solitary M (M.enter s t k) := by
  rw [Monitor.enter]
  split_ifs with hready
  · refine ⟨?_, fun h ↦ absurd hwaiting h⟩
    show s.waiting.length + s.woken.length ≤ 1
    rw [hwaiting, hwoken]
    exact Nat.zero_le 1
  · refine ⟨?_, fun _ ↦ by simpa using hready⟩
    show (s.waiting ++ [(t, k)]).length + s.woken.length ≤ 1
    rw [hwaiting, hwoken]
    exact Nat.le_refl 1

/-- **One step** of a single thread, or of those who put something in. -/
theorem Solitary.step [Subsingleton T] (h : Solitary M s) (hs : M.step s a = some s') :
    Solitary M s' := by
  have hle := h.length_le
  -- When one has been woken, nobody waits.
  have hnil : ∀ {l : List (T × κ)}, l.length + (s.woken.length + 1) ≤ 1 → l = [] := by
    intro l hl
    rw [← List.length_eq_zero_iff]
    omega
  cases a with
  | put i signalled =>
    cases signalled with
    | none =>
      simp only [Monitor.step] at hs
      split_ifs at hs with hempty
      obtain rfl := Option.some.inj hs
      exact ⟨hle, fun hne ↦ absurd (List.isEmpty_iff.1 hempty) hne⟩
    | some t =>
      obtain ⟨⟨p, l⟩, hleave, rfl⟩ := Option.map_eq_some_iff.1 hs
      have hlen := (length_of_leave hleave).1
      have hle' : l.length + (s.woken ++ [p]).length ≤ 1 := by
        rw [List.length_append, List.length_singleton]
        omega
      exact ⟨hle', fun hne ↦ absurd (hnil (by rwa [List.length_append] at hle')) hne⟩
  | get t k =>
    simp only [Monitor.step] at hs
    split_ifs at hs with hfree
    obtain rfl := Option.some.inj hs
    exact Solitary.enter (eq_nil_of_leave hfree.1) (eq_nil_of_leave hfree.2)
  | wake t =>
    obtain ⟨⟨p, l⟩, hleave, rfl⟩ := Option.map_eq_some_iff.1 hs
    have hlen := (length_of_leave hleave).1
    refine Solitary.enter (List.length_eq_zero_iff.1 ?_) (List.length_eq_zero_iff.1 ?_)
    · show s.waiting.length = 0
      omega
    · show l.length = 0
      omega
  | spurious t =>
    obtain ⟨⟨p, l⟩, hleave, rfl⟩ := Option.map_eq_some_iff.1 hs
    have hlen := (length_of_leave hleave).1
    have hle' : l.length + (s.woken ++ [p]).length ≤ 1 := by
      rw [List.length_append, List.length_singleton]
      omega
    exact ⟨hle', fun hne ↦ absurd (hnil (by rwa [List.length_append] at hle')) hne⟩

/-! ### Nothing is lost -/

/-- The data is a queue, of what is put in. -/
structure Queues (M : Monitor τ ι κ α) (content : τ → List β) (inp : ι → List β)
    (out : α → List β) : Prop where
  put_eq : ∀ d i, content (M.put d i) = content d ++ inp i
  take_eq : ∀ d k, M.ready d = true → out (M.take d k).1 ++ content (M.take d k).2 = content d

/-- What a step puts in. -/
def Act.puts (inp : ι → List β) : Act T ι κ → List β
  | .put i _ => inp i
  | .get _ _ | .wake _ | .spurious _ => []

/-- What has been put in, taken out or not. -/
def history (content : τ → List β) (out : α → List β) (s : State T τ κ α) : List β :=
  s.taken.flatMap (fun p ↦ out p.2) ++ content s.data

variable {content : τ → List β} {inp : ι → List β} {out : α → List β}

omit [DecidableEq T] in
theorem history_enter (hM : Queues M content inp out) :
    history content out (M.enter s t k) = history content out s := by
  rw [Monitor.enter]
  split_ifs with hready
  · simp only [history, List.flatMap_append, List.flatMap_singleton, List.append_assoc,
      hM.take_eq _ _ hready]
  · rfl

/-- **One step extends the history** by what the step puts in: what has been taken and what is still
there are everything that was put in, in its order. -/
theorem history_step (hM : Queues M content inp out) (hs : M.step s a = some s') :
    history content out s' = history content out s ++ a.puts inp := by
  cases a with
  | put i signalled =>
    cases signalled with
    | none =>
      simp only [Monitor.step] at hs
      split_ifs at hs
      obtain rfl := Option.some.inj hs
      simp only [history, Act.puts, hM.put_eq, List.append_assoc]
    | some t =>
      obtain ⟨r, -, rfl⟩ := Option.map_eq_some_iff.1 hs
      simp only [history, Act.puts, hM.put_eq, List.append_assoc]
  | get t k =>
    simp only [Monitor.step] at hs
    split_ifs at hs
    obtain rfl := Option.some.inj hs
    rw [history_enter hM, Act.puts, List.append_nil]
  | wake t =>
    obtain ⟨r, -, rfl⟩ := Option.map_eq_some_iff.1 hs
    rw [history_enter hM, Act.puts, List.append_nil]
    rfl
  | spurious t =>
    obtain ⟨r, -, rfl⟩ := Option.map_eq_some_iff.1 hs
    rw [Act.puts, List.append_nil]
    rfl

/-- **A run** puts in what its steps put in, in their order. -/
theorem history_run {l : List (Act T ι κ)} (hM : Queues M content inp out)
    (hrun : run M.step s l = some s') :
    history content out s' = history content out s ++ l.flatMap (Act.puts inp) := by
  rw [List.flatMap_def, ← List.foldl_append_eq_append]
  refine run_refines (R := fun s c ↦ history content out s = c)
    (fun s c a s' h _ hs ↦ ?_) rfl (guarded_of_forall (p := fun _ ↦ True) fun _ _ ↦ trivial) hrun
  rw [← h, history_step hM hs]

end Monitor
