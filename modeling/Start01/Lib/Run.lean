/-
Start01/Lib/Run.lean

Runs of a machine with outputs.  A machine is a partial step

    step : σ → ι → Option (σ × List ω),

`none` being a step that does not return.  `run` feeds a list of inputs and
concatenates the outputs.  Five rules carry an argument about one step to whole
runs:

* `run_invariant` — what every step keeps of the state, and gives of its outputs,
  holds of the state reached and of all outputs;
* `run_along` — the same for runs in which every step meets a condition;
* `run_forall_iff` — if a step's outputs are all good exactly when a condition
  on the state before the step and on its input holds, then the outputs of a
  run are all good exactly when that condition holds along the run (`Along`);
* `run_verdict` — the same for outputs that each carry their own condition, where
  the invariant need only survive while all outputs are good (`trace_verdict` for a
  machine that always returns);
* `run_refines` — a relation to the states of a second machine, which always returns
  (`trace`), makes the runs of the two give the same outputs.

A machine without outputs is a partial step `σ → ι → Option σ`; it is run by `exec`,
and `exec_invariant` is its invariant rule, for runs in which every step meets a
condition (`Meets`).
-/
import Mathlib.Tactic

namespace Run

variable {σ ι ω : Type*} (step : σ → ι → Option (σ × List ω))

/-- Feed the inputs in order; concatenate the outputs. -/
def run : σ → List ι → Option (σ × List ω)
  | s, [] => some (s, [])
  | s, i :: is => do
      let (s₁, o₁) ← step s i
      let (s₂, o₂) ← run s₁ is
      return (s₂, o₁ ++ o₂)

/-- `C` holds at every step of the run: of the state before it and its input. -/
def Along (C : σ → ι → Prop) : σ → List ι → Prop
  | _, [] => True
  | s, i :: is => C s i ∧ ∀ s' o, step s i = some (s', o) → Along C s' is

variable {step}

/-- Whether a condition holds along a run can be tested. -/
instance Along.decidable {C : σ → ι → Prop} [∀ s i, Decidable (C s i)] :
    ∀ s is, Decidable (Along step C s is)
  | _, [] => .isTrue trivial
  | s, i :: is =>
    match h : step s i with
    | none => decidable_of_iff (C s i) (by simp [Along, h])
    | some (s₁, o₁) =>
      have : Decidable (Along step C s₁ is) := Along.decidable s₁ is
      decidable_of_iff (C s i ∧ Along step C s₁ is) (by simp [Along, h])

/-- A run that returns returns from its first step and from the rest. -/
theorem run_cons_eq_some {s s' : σ} {i : ι} {is : List ι} {o : List ω} :
    run step s (i :: is) = some (s', o) ↔
      ∃ s₁ o₁ o₂, step s i = some (s₁, o₁) ∧ run step s₁ is = some (s', o₂) ∧ o = o₁ ++ o₂ := by
  constructor
  · intro h
    simp only [run, Option.bind_eq_bind, Option.bind_eq_some_iff] at h
    obtain ⟨⟨s₁, o₁⟩, h₁, ⟨s₂, o₂⟩, h₂, heq⟩ := h
    obtain ⟨rfl, rfl⟩ := Prod.mk.injEq .. ▸ Option.some.inj heq
    exact ⟨s₁, o₁, o₂, h₁, h₂, rfl⟩
  · rintro ⟨s₁, o₁, o₂, h₁, h₂, rfl⟩
    simp [run, h₁, h₂]

/-- What a fixed run comes out at can be read off it. -/
theorem read_run {α β : Type*} {o : Option α} {x : α} {v : β} (f : α → β) (hx : o = some x)
    (h : o.map f = some v) : f x = v := by
  rw [hx] at h
  exact Option.some.inj h

/-- **Conditional rule.**  What every step that meets the condition keeps of the state,
and gives of its outputs, holds of the state reached and of all outputs. -/
theorem run_along {P : σ → Prop} {Q : ω → Prop} {C : σ → ι → Prop}
    (hstep : ∀ s i s' o, P s → C s i → step s i = some (s', o) → P s' ∧ ∀ e ∈ o, Q e)
    {is : List ι} :
    ∀ {s s' : σ} {o : List ω}, P s → Along step C s is → run step s is = some (s', o) →
      P s' ∧ ∀ e ∈ o, Q e := by
  induction is with
  | nil =>
    intro s s' o hP _ h
    obtain ⟨rfl, rfl⟩ := Prod.mk.injEq .. ▸ Option.some.inj h
    exact ⟨hP, fun _ he => absurd he List.not_mem_nil⟩
  | cons i is ih =>
    intro s s' o hP hC h
    obtain ⟨s₁, o₁, o₂, h₁, h₂, rfl⟩ := run_cons_eq_some.mp h
    obtain ⟨hP₁, hQ₁⟩ := hstep s i s₁ o₁ hP hC.1 h₁
    obtain ⟨hP', hQ₂⟩ := ih hP₁ (hC.2 s₁ o₁ h₁) h₂
    exact ⟨hP', List.forall_mem_append.mpr ⟨hQ₁, hQ₂⟩⟩

/-- A condition that always holds holds along every run. -/
theorem along_of_forall {C : σ → ι → Prop} (hC : ∀ s i, C s i) (is : List ι) :
    ∀ s, Along step C s is := by
  induction is with
  | nil => exact fun _ => trivial
  | cons i is ih => exact fun s => ⟨hC s i, fun s' _ _ => ih s'⟩

/-- Where a condition holds along a run, it holds along the first part of it and along the rest. -/
theorem Along.of_append {C : σ → ι → Prop} {is is' : List ι} :
    ∀ {s s₁ : σ} {o : List ω}, run step s is = some (s₁, o) → Along step C s (is ++ is') →
      Along step C s is ∧ Along step C s₁ is' := by
  induction is with
  | nil =>
    intro s s₁ o h hC
    obtain ⟨rfl, -⟩ := Prod.mk.injEq .. ▸ Option.some.inj h
    exact ⟨trivial, hC⟩
  | cons i is ih =>
    intro s s₁ o h hC
    obtain ⟨s₂, o₁, o₂, hi, his, -⟩ := run_cons_eq_some.mp h
    refine ⟨⟨hC.1, fun s' o' hs' => ?_⟩, (ih his (hC.2 s₂ o₁ hi)).2⟩
    obtain ⟨rfl, -⟩ := Prod.mk.injEq .. ▸ Option.some.inj (hi.symm.trans hs')
    exact (ih his (hC.2 s₂ o₁ hi)).1

/-- A condition on the inputs alone joins one that holds along the run. -/
theorem Along.and_inputs {C : σ → ι → Prop} {D : ι → Prop} {is : List ι} :
    ∀ {s : σ}, (∀ i ∈ is, D i) → Along step C s is → Along step (fun s i => D i ∧ C s i) s is := by
  induction is with
  | nil => exact fun _ _ => trivial
  | cons i is ih =>
    intro s hD hC
    obtain ⟨hi, his⟩ := List.forall_mem_cons.mp hD
    exact ⟨⟨hi, hC.1⟩, fun s' o h => ih his (hC.2 s' o h)⟩

/-- **Invariant rule.**  What every step keeps of the state, and gives of its
outputs, holds of the state reached and of all outputs. -/
theorem run_invariant {P : σ → Prop} {Q : ω → Prop}
    (hstep : ∀ s i s' o, P s → step s i = some (s', o) → P s' ∧ ∀ e ∈ o, Q e) {is : List ι}
    {s s' : σ} {o : List ω} (hP : P s) (h : run step s is = some (s', o)) :
    P s' ∧ ∀ e ∈ o, Q e :=
  run_along (C := fun _ _ => True) (fun s i s' o hs _ => hstep s i s' o hs) hP
    (along_of_forall (fun _ _ => trivial) is s) h

/-- **Exact rule.**  Under an invariant `P`, if the outputs of a step are all in
`R` iff `C` holds of the state and the input, then the outputs of a run are all
in `R` iff `C` holds along the run. -/
theorem run_forall_iff {P : σ → Prop} {R : ω → Prop} {C : σ → ι → Prop}
    (hstep : ∀ s i s' o, P s → step s i = some (s', o) →
      P s' ∧ ((∀ e ∈ o, R e) ↔ C s i)) {is : List ι} :
    ∀ {s s' : σ} {o : List ω}, P s → run step s is = some (s', o) →
      ((∀ e ∈ o, R e) ↔ Along step C s is) := by
  induction is with
  | nil =>
    intro s s' o _ h
    obtain ⟨-, rfl⟩ := Prod.mk.injEq .. ▸ Option.some.inj h
    exact ⟨fun _ => trivial, fun _ e he => by cases he⟩
  | cons i is ih =>
    intro s s' o hP h
    obtain ⟨s₁, o₁, o₂, h₁, h₂, rfl⟩ := run_cons_eq_some.mp h
    obtain ⟨hP₁, hiff⟩ := hstep s i s₁ o₁ hP h₁
    have hrest := ih hP₁ h₂
    rw [List.forall_mem_append, hiff, hrest]
    constructor
    · rintro ⟨hC, hal⟩
      -- the step is a function, so the rest is the one already run
      refine ⟨hC, fun s'' o' h' => ?_⟩
      obtain ⟨rfl, -⟩ := Prod.mk.injEq .. ▸ Option.some.inj (h₁.symm.trans h')
      exact hal
    · exact fun hal => ⟨hal.1, hal.2 s₁ o₁ h₁⟩

/-! ### Outputs that carry their own condition -/

/-- The outputs so far are all in `R` iff they are all in `C`, and while they are,
the state is in `P`. -/
def Verdict (P : σ → Prop) (R C : ω → Prop) (s : σ) (o : List ω) : Prop :=
  ((∀ e ∈ o, R e) ↔ ∀ e ∈ o, C e) ∧ ((∀ e ∈ o, R e) → P s)

theorem Verdict.nil {P : σ → Prop} {R C : ω → Prop} {s : σ} (h : P s) : Verdict P R C s [] :=
  ⟨by simp, fun _ => h⟩

/-- A verdict is extended by a step that need only be understood in a state in `P`. -/
theorem Verdict.append {P : σ → Prop} {R C : ω → Prop} {s s' : σ} {o o' : List ω}
    (h : Verdict P R C s o) (h' : P s → Verdict P R C s' o') : Verdict P R C s' (o ++ o') := by
  obtain ⟨hiff, hP⟩ := h
  simp only [Verdict, List.forall_mem_append]
  constructor
  · constructor
    · rintro ⟨hR, hR'⟩
      exact ⟨hiff.mp hR, (h' (hP hR)).1.mp hR'⟩
    · rintro ⟨hC, hC'⟩
      have hR := hiff.mpr hC
      exact ⟨hR, (h' (hP hR)).1.mpr hC'⟩
  · rintro ⟨hR, hR'⟩
    exact (h' (hP hR)).2 hR'

/-- **Verdict rule.** -/
theorem run_verdict {P : σ → Prop} {R C : ω → Prop}
    (hstep : ∀ s i s' o, P s → step s i = some (s', o) → Verdict P R C s' o) {is : List ι} :
    ∀ {s s' : σ} {o : List ω}, P s → run step s is = some (s', o) → Verdict P R C s' o := by
  induction is with
  | nil =>
    intro s s' o hP h
    obtain ⟨rfl, rfl⟩ := Prod.mk.injEq .. ▸ Option.some.inj h
    exact .nil hP
  | cons i is ih =>
    intro s s' o hP h
    obtain ⟨s₁, o₁, o₂, h₁, h₂, rfl⟩ := run_cons_eq_some.mp h
    exact (hstep s i s₁ o₁ hP h₁).append fun hP₁ => ih hP₁ h₂

/-! ### Refinement -/

section Refinement

variable {τ : Type*}

/-- The run of a machine that always returns. -/
def trace (spec : τ → ι → τ × List ω) : τ → List ι → τ × List ω
  | t, [] => (t, [])
  | t, i :: is =>
      let r := trace spec (spec t i).1 is
      (r.1, (spec t i).2 ++ r.2)

/-- **Verdict rule**, for a machine that always returns. -/
theorem trace_verdict {P : τ → Prop} {R C : ω → Prop} {spec : τ → ι → τ × List ω}
    (hstep : ∀ t i, P t → Verdict P R C (spec t i).1 (spec t i).2) (is : List ι) :
    ∀ {t : τ}, P t → Verdict P R C (trace spec t is).1 (trace spec t is).2 := by
  induction is with
  | nil => exact fun hP => .nil hP
  | cons i is ih => exact fun {t} hP => (hstep t i hP).append fun hP₁ => ih hP₁

/-- **Refinement rule.**  If every step that meets the condition returns, with the outputs of the
other machine and in a related state, so does every run. -/
theorem run_refines {R : σ → τ → Prop} {C : σ → ι → Prop} {spec : τ → ι → τ × List ω}
    (hstep : ∀ s t i, R s t → C s i →
      ∃ s', step s i = some (s', (spec t i).2) ∧ R s' (spec t i).1) {is : List ι} :
    ∀ {s : σ} {t : τ}, R s t → Along step C s is →
      ∃ s', run step s is = some (s', (trace spec t is).2) ∧ R s' (trace spec t is).1 := by
  induction is with
  | nil => exact fun {s t} hR _ => ⟨s, rfl, hR⟩
  | cons i is ih =>
    intro s t hR hC
    obtain ⟨s₁, h₁, hR₁⟩ := hstep s t i hR hC.1
    obtain ⟨s', h', hR'⟩ := ih hR₁ (hC.2 s₁ _ h₁)
    exact ⟨s', run_cons_eq_some.mpr ⟨s₁, _, _, h₁, h', rfl⟩, hR'⟩

end Refinement

/-! ### Machines without outputs -/

section Exec

variable (move : σ → ι → Option σ)

/-- Feed the inputs in order. -/
def exec : σ → List ι → Option σ
  | s, [] => some s
  | s, i :: is => (move s i).bind fun s' => exec s' is

/-- `C` holds at every step of the run: of the state before it and its input. -/
def Meets (C : σ → ι → Prop) : σ → List ι → Prop
  | _, [] => True
  | s, i :: is => C s i ∧ ∀ s', move s i = some s' → Meets C s' is

variable {move}

/-- Whether the condition is met can be tested. -/
instance Meets.decidable {C : σ → ι → Prop} [∀ s i, Decidable (C s i)] :
    ∀ s is, Decidable (Meets move C s is)
  | _, [] => .isTrue trivial
  | s, i :: is =>
    match h : move s i with
    | none => decidable_of_iff (C s i) (by simp [Meets, h])
    | some s₁ =>
      have : Decidable (Meets move C s₁ is) := Meets.decidable s₁ is
      decidable_of_iff (C s i ∧ Meets move C s₁ is) (by simp [Meets, h])

theorem exec_cons_eq_some {s s' : σ} {i : ι} {is : List ι} :
    exec move s (i :: is) = some s' ↔ ∃ s₁, move s i = some s₁ ∧ exec move s₁ is = some s' := by
  rw [exec, Option.bind_eq_some_iff]

theorem exec_append {s s₁ : σ} {is is' : List ι} (h : exec move s is = some s₁) :
    exec move s (is ++ is') = exec move s₁ is' := by
  induction is generalizing s with
  | nil =>
    obtain rfl := Option.some.inj h
    rfl
  | cons i is ih =>
    obtain ⟨s₂, hi, his⟩ := exec_cons_eq_some.mp h
    rw [List.cons_append, exec, hi, Option.bind_some, ih his]

/-- What holds of each input in every state is met. -/
theorem meets_of_forall {C : σ → ι → Prop} {is : List ι} :
    ∀ {s : σ}, (∀ i ∈ is, ∀ s, C s i) → Meets move C s is := by
  induction is with
  | nil => exact fun _ => trivial
  | cons i is ih =>
    intro s h
    obtain ⟨hi, his⟩ := List.forall_mem_cons.mp h
    exact ⟨hi s, fun _ _ => ih his⟩

/-- A stronger condition gives a weaker one. -/
theorem Meets.mono {C D : σ → ι → Prop} (hCD : ∀ s i, C s i → D s i) {is : List ι} :
    ∀ {s : σ}, Meets move C s is → Meets move D s is := by
  induction is with
  | nil => exact fun _ => trivial
  | cons i is ih => exact fun h => ⟨hCD _ _ h.1, fun s' hs' => ih (h.2 s' hs')⟩

/-- Where a condition is met along a run, it is met along the first part of it and along the
rest. -/
theorem Meets.of_append {C : σ → ι → Prop} {is is' : List ι} :
    ∀ {s s₁ : σ}, exec move s is = some s₁ → Meets move C s (is ++ is') →
      Meets move C s is ∧ Meets move C s₁ is' := by
  induction is with
  | nil =>
    intro s s₁ h hC
    obtain rfl := Option.some.inj h
    exact ⟨trivial, hC⟩
  | cons i is ih =>
    intro s s₁ h hC
    obtain ⟨s₂, hi, his⟩ := exec_cons_eq_some.mp h
    refine ⟨⟨hC.1, fun s' hs' => ?_⟩, (ih his (hC.2 s₂ hi)).2⟩
    obtain rfl := Option.some.inj (hi.symm.trans hs')
    exact (ih his (hC.2 s₂ hi)).1

/-- **Invariant rule.**  What every step that meets the condition keeps holds of the
state reached. -/
theorem exec_invariant {P : σ → Prop} {C : σ → ι → Prop}
    (hstep : ∀ s i s', P s → C s i → move s i = some s' → P s') {is : List ι} :
    ∀ {s s' : σ}, P s → Meets move C s is → exec move s is = some s' → P s' := by
  induction is with
  | nil =>
    intro s s' hP _ h
    exact Option.some.inj h ▸ hP
  | cons i is ih =>
    intro s s' hP hC h
    obtain ⟨s₁, h₁, h₂⟩ := exec_cons_eq_some.mp h
    exact ih (hstep s i s₁ hP hC.1 h₁) (hC.2 s₁ h₁) h₂

/-- **Total rule.**  If every step that meets the condition returns and keeps the invariant, so does
every run. -/
theorem exec_total {P : σ → Prop} {C : σ → ι → Prop}
    (hstep : ∀ s i, P s → C s i → ∃ s', move s i = some s' ∧ P s') {is : List ι} :
    ∀ {s : σ}, P s → Meets move C s is → ∃ s', exec move s is = some s' ∧ P s' := by
  induction is with
  | nil => exact fun {s} h _ => ⟨s, rfl, h⟩
  | cons i is ih =>
    intro s h hC
    obtain ⟨s₁, hs₁, h₁⟩ := hstep s i h hC.1
    obtain ⟨s', hs', h'⟩ := ih h₁ (hC.2 s₁ hs₁)
    exact ⟨s', exec_cons_eq_some.mpr ⟨s₁, hs₁, hs'⟩, h'⟩

end Exec

end Run
