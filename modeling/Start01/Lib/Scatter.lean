/-
Start01/Lib/Scatter.lean

Element-wise copy loops into a memory.  A memory is a function `α → β`, and

    for (i = 0; i < n; i++)  m[g(i)] = b(i);

is `scatter m g b n`.  The address map `g` is arbitrary: `fun i => a + i` for a
block at address `a`, `fun i => (a + i) % size` for a chip whose address counter
wraps.  Where `g` is injective on the indices written, cell `g i` ends up
holding `b i`; a cell that `g` never hits keeps its value.
-/
import Mathlib.Tactic
import Mathlib.Logic.Function.Basic

namespace Scatter

variable {α β : Type*} [DecidableEq α]

/-- `for (i = 0; i < n; i++) m[g(i)] = b(i)`. -/
def scatter (m : α → β) (g : ℕ → α) (b : ℕ → β) : ℕ → α → β
  | 0 => m
  | n + 1 => Function.update (scatter m g b n) (g n) (b n)

theorem scatter_succ (m : α → β) (g : ℕ → α) (b : ℕ → β) (n : ℕ) :
    scatter m g b (n + 1) = Function.update (scatter m g b n) (g n) (b n) := rfl

/-- Frame: a cell outside the written ones keeps its value. -/
theorem scatter_of_forall_ne {m : α → β} {g : ℕ → α} {b : ℕ → β} {x : α} :
    ∀ {n : ℕ}, (∀ i < n, x ≠ g i) → scatter m g b n x = m x := by
  intro n
  induction n with
  | zero => intro _; rfl
  | succ n ih =>
    intro h
    rw [scatter_succ, Function.update_of_ne (h n (Nat.lt_succ_self n))]
    exact ih fun i hi => h i (Nat.lt_succ_of_lt hi)

/-- The cell written at index `i` holds `b i`, if no later index hits it again. -/
theorem scatter_apply {m : α → β} {g : ℕ → α} {b : ℕ → β} {i : ℕ} :
    ∀ {n : ℕ}, i < n → (∀ j < n, g j = g i → j = i) → scatter m g b n (g i) = b i := by
  intro n
  induction n with
  | zero => intro h; exact absurd h (Nat.not_lt_zero i)
  | succ n ih =>
    intro hi hinj
    rw [scatter_succ]
    by_cases hlast : g n = g i
    · have hin : n = i := hinj n (Nat.lt_succ_self n) hlast
      rw [hlast, Function.update_self, hin]
    · have hne : i ≠ n := fun e => hlast (e ▸ rfl)
      rw [Function.update_of_ne (Ne.symm hlast)]
      exact ih (by omega) fun j hj => hinj j (Nat.lt_succ_of_lt hj)

/-- Two loops that write the same bytes to the same cells. -/
theorem scatter_congr {m : α → β} {g g' : ℕ → α} {b b' : ℕ → β} :
    ∀ {n : ℕ}, (∀ i < n, g i = g' i ∧ b i = b' i) → scatter m g b n = scatter m g' b' n := by
  intro n
  induction n with
  | zero => exact fun _ => rfl
  | succ n ih =>
    intro h
    obtain ⟨hg, hb⟩ := h n (Nat.lt_succ_self n)
    rw [scatter_succ, scatter_succ, hg, hb, ih fun i hi => h i (Nat.lt_succ_of_lt hi)]

/-- A loop is its first part and then its second. -/
theorem scatter_add (m : α → β) (g : ℕ → α) (b : ℕ → β) (l n : ℕ) :
    scatter m g b (l + n)
      = scatter (scatter m g b l) (fun i => g (l + i)) (fun i => b (l + i)) n := by
  induction n with
  | zero => rfl
  | succ n ih => rw [← Nat.add_assoc, scatter_succ, scatter_succ, ih]

end Scatter
