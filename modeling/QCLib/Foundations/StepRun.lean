import Mathlib.Data.List.Basic

/-!
# Runs of a partial step function

A system is a step `σ → ι → Option σ`: a state, an input, and the next state, where `none` is a
step that has no defined result. A run folds the step over a list of inputs, so a state is
reachable exactly when some list of inputs leads to it.

Three rules package the inductions over runs. `guarded_inv` is the partial one: an invariant that
every defined, admissible step preserves holds before every step. `exists_run` is the total one:
when the invariant and admissibility also make each step defined, the run itself is defined.
`guarded_iff` compares two conditions on the steps of a run. Admissibility (`Guarded`) is a
condition on each input *in the state it is consumed in*, so it can speak of the history only
through the state.

Nothing here knows what a step does. A model defines its step function, names its invariant, and
shows one step at a time; the rules turn that into a statement about every run:

* `run_inv` and `guarded_inv` — an invariant of admissible steps holds throughout;
* `exists_run` and `exists_run_refines` — the run is defined, and follows an abstract one;
* `run_map_of_guarded` — a map of states that commutes with the steps commutes with the runs;
* `guarded_iff`, `guarded_forall_iff` — conditions along a run, compared.

`Throughout` is a property of every state on the way, `Guarded` of every step, and `Into` of the
step that leads into a state.
-/

namespace StepRun

variable {σ ι : Type*} {step : σ → ι → Option σ} {ok : σ → ι → Prop} {Inv : σ → Prop}

/-- The state reached by consuming the inputs in order; `none` as soon as one step is undefined. -/
def run (step : σ → ι → Option σ) (s : σ) (l : List ι) : Option σ :=
  l.foldlM step s

@[simp] theorem run_nil (s : σ) : run step s [] = some s := rfl

@[simp] theorem run_cons (s : σ) (i : ι) (l : List ι) :
    run step s (i :: l) = (step s i).bind fun s' ↦ run step s' l := by
  simp [run, List.foldlM_cons, Option.bind_eq_bind]

/-- A run over two lists is a run over the second one from where the first one ends. -/
theorem run_append (s : σ) (l₁ l₂ : List ι) :
    run step s (l₁ ++ l₂) = (run step s l₁).bind fun s' ↦ run step s' l₂ := by
  rw [run, List.foldlM_append]
  rfl

/-- A map that commutes with the steps of two systems commutes with their runs. -/
theorem run_map {τ : Type*} {step' : τ → ι → Option τ} {f : σ → τ}
    (h : ∀ s i, step' (f s) i = (step s i).map f) (s : σ) (l : List ι) :
    run step' (f s) l = (run step s l).map f := by
  induction l generalizing s with
  | nil => rfl
  | cons i l ih =>
    rw [run_cons, run_cons, h]
    cases step s i with
    | none => rfl
    | some s' => exact ih s'

/-- Every input meets `ok` in the state in which it is consumed. -/
def Guarded (step : σ → ι → Option σ) (ok : σ → ι → Prop) : σ → List ι → Prop
  | _, [] => True
  | s, i :: l => ok s i ∧
    match step s i with
    | some s' => Guarded step ok s' l
    | none => True

instance decidableGuarded [∀ s i, Decidable (ok s i)] : ∀ s l, Decidable (Guarded step ok s l)
  | _, [] => inferInstanceAs (Decidable True)
  | s, i :: l =>
    match h : step s i with
    | some s' =>
      have := decidableGuarded s' l
      decidable_of_iff (ok s i ∧ Guarded step ok s' l) (by rw [Guarded, h])
    | none => decidable_of_iff (ok s i) (by rw [Guarded, h]; simp)

@[simp] theorem guarded_nil (s : σ) : Guarded step ok s [] := trivial

/-- The condition is met at the first step, and by the rest of the run from there. -/
theorem guarded_cons {s : σ} {i : ι} {l : List ι} :
    Guarded step ok s (i :: l) ↔ ok s i ∧ ∀ s', step s i = some s' → Guarded step ok s' l := by
  rw [Guarded]
  cases step s i <;> simp

/-- A condition on the inputs alone guards a run that satisfies it throughout. -/
theorem guarded_of_forall {p : ι → Prop} {s : σ} {l : List ι} (h : ∀ i ∈ l, p i) :
    Guarded step (fun _ ↦ p) s l := by
  induction l generalizing s with
  | nil => trivial
  | cons i l ih =>
    exact guarded_cons.2 ⟨h i List.mem_cons_self,
      fun _ _ ↦ ih fun j hj ↦ h j (List.mem_cons_of_mem _ hj)⟩

/-- On a defined run, a condition on the inputs alone is met if and only if every input meets it. -/
theorem guarded_forall_iff {p : ι → Prop} {s s' : σ} {l : List ι} (h : run step s l = some s') :
    Guarded step (fun _ ↦ p) s l ↔ ∀ i ∈ l, p i := by
  refine ⟨fun hok ↦ ?_, guarded_of_forall⟩
  induction l generalizing s with
  | nil => simp
  | cons i l ih =>
    rw [run_cons] at h
    obtain ⟨s₁, hs₁, hrest⟩ := Option.bind_eq_some_iff.1 h
    obtain ⟨hi, hl⟩ := guarded_cons.1 hok
    exact List.forall_mem_cons.2 ⟨hi, ih hrest (hl s₁ hs₁)⟩

/-- A run is guarded from a point on when it is guarded. -/
theorem Guarded.of_append_right {s s' : σ} {l₁ l₂ : List ι} (h : Guarded step ok s (l₁ ++ l₂))
    (hrun : run step s l₁ = some s') : Guarded step ok s' l₂ := by
  induction l₁ generalizing s with
  | nil =>
    obtain rfl := Option.some.inj hrun
    exact h
  | cons i l₁ ih =>
    rw [run_cons] at hrun
    obtain ⟨s₁, hs₁, hrest⟩ := Option.bind_eq_some_iff.1 hrun
    exact ih ((guarded_cons.1 h).2 s₁ hs₁) hrest

/-- **A simulation along admissible runs**: a map of the states that commutes with the admissible
steps commutes with the runs that take no others. -/
theorem run_map_of_guarded {τ : Type*} {step' : τ → ι → Option τ} {f : σ → τ}
    (h : ∀ s i, ok s i → step' (f s) i = (step s i).map f) {s : σ} {l : List ι}
    (hok : Guarded step ok s l) : run step' (f s) l = (run step s l).map f := by
  induction l generalizing s with
  | nil => rfl
  | cons i l ih =>
    obtain ⟨hi, hl⟩ := guarded_cons.1 hok
    rw [run_cons, run_cons, h s i hi]
    cases hs : step s i with
    | none => rfl
    | some s' => exact ih (hl s' hs)

/-- A weaker condition guards whatever a stronger one does. -/
theorem Guarded.mono {ok' : σ → ι → Prop} (himp : ∀ s i, ok s i → ok' s i) {s : σ} {l : List ι}
    (h : Guarded step ok s l) : Guarded step ok' s l := by
  induction l generalizing s with
  | nil => trivial
  | cons i l ih =>
    obtain ⟨hi, hl⟩ := guarded_cons.1 h
    exact guarded_cons.2 ⟨himp s i hi, fun s' hs' ↦ ih (hl s' hs')⟩

/-- Two conditions guard a run together when each does. -/
theorem Guarded.and {ok' : σ → ι → Prop} {s : σ} {l : List ι} (h : Guarded step ok s l)
    (h' : Guarded step ok' s l) : Guarded step (fun s i ↦ ok s i ∧ ok' s i) s l := by
  induction l generalizing s with
  | nil => trivial
  | cons i l ih =>
    obtain ⟨hi, hl⟩ := guarded_cons.1 h
    obtain ⟨hi', hl'⟩ := guarded_cons.1 h'
    exact guarded_cons.2 ⟨⟨hi, hi'⟩, fun s' hs' ↦ ih (hl s' hs') (hl' s' hs')⟩

/-- **Invariants along runs.** An invariant that the admitted steps keep holds before every step. -/
theorem guarded_inv (hstep : ∀ s i s', Inv s → ok s i → step s i = some s' → Inv s') {s : σ}
    {l : List ι} (hs : Inv s) (hok : Guarded step ok s l) : Guarded step (fun s _ ↦ Inv s) s l := by
  induction l generalizing s with
  | nil => trivial
  | cons i l ih =>
    obtain ⟨hi, hl⟩ := guarded_cons.1 hok
    exact guarded_cons.2 ⟨hs, fun s' hs' ↦ ih (hstep s i s' hs hi hs') (hl s' hs')⟩

/-- The step leads nowhere but into `P`. -/
def Into (step : σ → ι → Option σ) (P : σ → Prop) (s : σ) (i : ι) : Prop :=
  match step s i with
  | some s' => P s'
  | none => True

instance [∀ s, Decidable (Inv s)] (s : σ) (i : ι) : Decidable (Into step Inv s i) :=
  match h : step s i with
  | some s' => decidable_of_iff (Inv s') (by rw [Into, h])
  | none => isTrue (by rw [Into, h]; trivial)

/-- Of a step that is defined, the property is one of its result. -/
theorem into_of_eq {s s' : σ} {i : ι} (h : step s i = some s') : Into step Inv s i ↔ Inv s' := by
  rw [Into, h]

/-- Every state that the run passes through satisfies `P`. -/
def Throughout (step : σ → ι → Option σ) (P : σ → Prop) (s : σ) (l : List ι) : Prop :=
  P s ∧ Guarded step (Into step P) s l

instance [∀ s, Decidable (Inv s)] (s : σ) (l : List ι) : Decidable (Throughout step Inv s l) :=
  inferInstanceAs (Decidable (_ ∧ _))

/-- An invariant that the admitted steps keep, and that implies `P`, gives `P` throughout. -/
theorem throughout_of_guarded {P : σ → Prop} (himp : ∀ s, Inv s → P s)
    (hstep : ∀ s i s', Inv s → ok s i → step s i = some s' → Inv s') {s : σ} {l : List ι}
    (hs : Inv s) (hok : Guarded step ok s l) : Throughout step P s l := by
  refine ⟨himp s hs, ((guarded_inv hstep hs hok).and hok).mono fun s i ⟨h, hi⟩ ↦ ?_⟩
  cases hs' : step s i with
  | none => rw [Into, hs']; trivial
  | some s' => exact (into_of_eq hs').2 (himp s' (hstep s i s' h hi hs'))

/-- A run that is defined is so at every step. -/
theorem guarded_isSome {s s' : σ} {l : List ι} (h : run step s l = some s') :
    Guarded step (fun s i ↦ (step s i).isSome) s l := by
  induction l generalizing s with
  | nil => trivial
  | cons i l ih =>
    rw [run_cons] at h
    obtain ⟨s₁, hs₁, hrest⟩ := Option.bind_eq_some_iff.1 h
    refine guarded_cons.2 ⟨by rw [hs₁]; rfl, fun s₂ hs₂ ↦ ?_⟩
    obtain rfl := Option.some.inj (hs₁.symm.trans hs₂)
    exact ih hrest

/-- A run is defined if every step on its way is. -/
theorem exists_run_of_isSome {s : σ} {l : List ι}
    (h : Guarded step (fun s i ↦ (step s i).isSome) s l) : ∃ s', run step s l = some s' := by
  induction l generalizing s with
  | nil => exact ⟨s, rfl⟩
  | cons i l ih =>
    obtain ⟨hi, hl⟩ := guarded_cons.1 h
    obtain ⟨s₁, hs₁⟩ := Option.isSome_iff_exists.1 hi
    obtain ⟨s', hrun⟩ := ih (hl s₁ hs₁)
    exact ⟨s', by rw [run_cons, hs₁]; exact hrun⟩

/-- **Two guards are one** when they agree on every step from an invariant state that meets a side
condition, and when the steps they admit keep the invariant. -/
theorem guarded_iff {ok' side : σ → ι → Prop}
    (hiff : ∀ s i, Inv s → side s i → (ok s i ↔ ok' s i))
    (hstep : ∀ s i s', Inv s → side s i → ok s i → step s i = some s' → Inv s') {s : σ} {l : List ι}
    (hs : Inv s) (hside : Guarded step side s l) : Guarded step ok s l ↔ Guarded step ok' s l := by
  induction l generalizing s with
  | nil => exact Iff.rfl
  | cons i l ih =>
    obtain ⟨hi, hl⟩ := guarded_cons.1 hside
    rw [guarded_cons, guarded_cons, ← hiff s i hs hi]
    refine and_congr_right fun hok ↦ forall_congr' fun s' ↦ forall_congr' fun hs' ↦ ?_
    exact ih (hstep s i s' hs hi hok hs') (hl s' hs')

/-- **Invariants make runs total.** When every admissible step from an invariant state is defined
and lands in an invariant state, so does every guarded run. -/
theorem exists_run (hstep : ∀ s i, Inv s → ok s i → ∃ s', step s i = some s' ∧ Inv s')
    {s : σ} {l : List ι} (hs : Inv s) (hok : Guarded step ok s l) :
    ∃ s', run step s l = some s' ∧ Inv s' := by
  induction l generalizing s with
  | nil => exact ⟨s, rfl, hs⟩
  | cons i l ih =>
    obtain ⟨hi, hl⟩ := guarded_cons.1 hok
    obtain ⟨s₁, hs₁, hinv⟩ := hstep s i hs hi
    obtain ⟨s', hrun, hs'⟩ := ih hinv (hl s₁ hs₁)
    exact ⟨s', by rw [run_cons, hs₁]; exact hrun, hs'⟩

/-- An invariant that the admissible steps keep holds at the end of a run that is defined. -/
theorem run_inv {I : σ → Prop} (hstep : ∀ s i s', I s → ok s i → step s i = some s' → I s')
    {s s' : σ} {l : List ι} (hs : I s) (hok : Guarded step ok s l)
    (hrun : run step s l = some s') : I s' := by
  induction l generalizing s with
  | nil =>
    obtain rfl := Option.some.inj hrun
    exact hs
  | cons i l ih =>
    obtain ⟨hi, hl⟩ := guarded_cons.1 hok
    rw [run_cons] at hrun
    obtain ⟨s₁, hs₁, hrest⟩ := Option.bind_eq_some_iff.1 hrun
    exact ih (hstep s i s₁ hs hi hs₁) (hl s₁ hs₁) hrest

/-- A run does to what the system stands for what a function does, when every step that is admitted
and defined does. -/
theorem run_refines {τ : Type*} {f : τ → ι → τ} {R : σ → τ → Prop}
    (hstep : ∀ s t i s', R s t → ok s i → step s i = some s' → R s' (f t i)) {s s' : σ} {t : τ}
    {l : List ι} (hs : R s t) (hok : Guarded step ok s l) (hrun : run step s l = some s') :
    R s' (l.foldl f t) := by
  induction l generalizing s t with
  | nil =>
    obtain rfl := Option.some.inj hrun
    exact hs
  | cons i l ih =>
    obtain ⟨hi, hl⟩ := guarded_cons.1 hok
    rw [run_cons] at hrun
    obtain ⟨s₁, hs₁, hrest⟩ := Option.bind_eq_some_iff.1 hrun
    exact ih (hstep s t i s₁ hs hi hs₁) (hl s₁ hs₁) hrest

/-- **Refinement.** When every admissible step is defined and does what a function does to the state
that the system stands for, so does every guarded run. -/
theorem exists_run_refines {τ : Type*} {f : τ → ι → τ} {R : σ → τ → Prop}
    (hstep : ∀ s t i, R s t → ok s i → ∃ s', step s i = some s' ∧ R s' (f t i)) {s : σ} {t : τ}
    {l : List ι} (hs : R s t) (hok : Guarded step ok s l) :
    ∃ s', run step s l = some s' ∧ R s' (l.foldl f t) := by
  induction l generalizing s t with
  | nil => exact ⟨s, rfl, hs⟩
  | cons i l ih =>
    obtain ⟨hi, hl⟩ := guarded_cons.1 hok
    obtain ⟨s₁, hs₁, hR⟩ := hstep s t i hs hi
    obtain ⟨s', hrun, hs'⟩ := ih hR (hl s₁ hs₁)
    exact ⟨s', by rw [run_cons, hs₁]; exact hrun, hs'⟩

end StepRun
