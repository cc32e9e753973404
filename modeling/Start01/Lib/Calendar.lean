/-
Start01/Lib/Calendar.lean

A calendar of twelve months over an arbitrary leap rule, counted in days from the
first of January of an epoch year.

* `daysBeforeMonth`, `daysBeforeYear`, `monthStart` — the day a month begins;
* `monthStart_add_le` — a month ends before any later one begins;
* `not_first_of_month` — inside a month no month begins;
* `daysBeforeMonth_from_march` — from March on, two leap rules differ by the length of
  the year;
* `month_unique` — with `c` ticks to a day, a tick lies behind the beginning and
  not behind the end of at most one month.
-/
import Mathlib.Tactic

namespace Calendar

variable (leap : ℕ → Bool) (epoch : ℕ)

/-- The days of month `m` (1 to 12) of year `y`. -/
def monthDays (y m : ℕ) : ℕ :=
  if m = 2 then (if leap y then 29 else 28)
  else if m = 4 ∨ m = 6 ∨ m = 9 ∨ m = 11 then 30 else 31

/-- The days of year `y`. -/
def yearDays (y : ℕ) : ℕ := if leap y then 366 else 365

/-- The days of year `y` before the first of month `m`. -/
def daysBeforeMonth (y : ℕ) : ℕ → ℕ
  | 0 => 0
  | 1 => 0
  | m + 2 => daysBeforeMonth y (m + 1) + monthDays leap y (m + 1)

/-- The days from the epoch to the first of January, `n` years later. -/
def daysBeforeYear : ℕ → ℕ
  | 0 => 0
  | n + 1 => daysBeforeYear n + yearDays leap (epoch + n)

/-- The days from the epoch to the first of month `m`, `n` years later. -/
def monthStart (n m : ℕ) : ℕ :=
  daysBeforeYear leap epoch n + daysBeforeMonth leap (epoch + n) m

variable {leap epoch}

theorem monthDays_le (y m : ℕ) : monthDays leap y m ≤ 31 := by
  unfold monthDays; split_ifs <;> omega

theorem daysBeforeMonth_succ (y : ℕ) {m : ℕ} (hm : 1 ≤ m) :
    daysBeforeMonth leap y (m + 1) = daysBeforeMonth leap y m + monthDays leap y m := by
  obtain ⟨k, rfl⟩ := Nat.exists_eq_add_of_le' hm
  rfl

theorem daysBeforeMonth_mono (y : ℕ) : Monotone (daysBeforeMonth leap y) := by
  refine monotone_nat_of_le_succ fun m => ?_
  cases m with
  | zero => exact le_refl 0
  | succ k => exact Nat.le_add_right _ _

/-- Twelve months make a year. -/
theorem daysBeforeMonth_thirteen (y : ℕ) : daysBeforeMonth leap y 13 = yearDays leap y := by
  cases h : leap y <;> simp [daysBeforeMonth, monthDays, yearDays, h]

/-- **From March on** the months have the same lengths in all years, and lie at the same
distance from the end of the year. -/
theorem daysBeforeMonth_from_march {leap' : ℕ → Bool} (y y' : ℕ) {m : ℕ} (hm : 3 ≤ m) :
    daysBeforeMonth leap y m + yearDays leap' y' = daysBeforeMonth leap' y' m + yearDays leap y := by
  induction m, hm using Nat.le_induction with
  | base =>
    cases h : leap y <;> cases h' : leap' y' <;>
      simp [daysBeforeMonth, monthDays, yearDays, h, h']
  | succ m hm ih =>
    have hsame : monthDays leap y m = monthDays leap' y' m := by
      simp only [monthDays, if_neg (show ¬ m = 2 by omega)]
    have hone : 1 ≤ m := (by decide : 1 ≤ 3).trans hm
    rw [daysBeforeMonth_succ _ hone, daysBeforeMonth_succ _ hone, hsame]
    omega

/-- Up to the first of February the leap rule does not matter. -/
theorem daysBeforeMonth_to_february {leap' : ℕ → Bool} (y y' : ℕ) {m : ℕ} (hm : m ≤ 2) :
    daysBeforeMonth leap y m = daysBeforeMonth leap' y' m := by
  interval_cases m <;> rfl

theorem daysBeforeYear_mono : Monotone (daysBeforeYear leap epoch) :=
  monotone_nat_of_le_succ fun _ => Nat.le_add_right _ _

/-- **A month ends before a later one begins.** -/
theorem monthStart_add_le {n m n' m' : ℕ} (hm : 1 ≤ m) (hm' : m ≤ 12)
    (hlt : n < n' ∨ n = n' ∧ m < m') :
    monthStart leap epoch n m + monthDays leap (epoch + n) m ≤ monthStart leap epoch n' m' := by
  have hend : monthStart leap epoch n m + monthDays leap (epoch + n) m
      = daysBeforeYear leap epoch n + daysBeforeMonth leap (epoch + n) (m + 1) := by
    rw [monthStart, Nat.add_assoc, ← daysBeforeMonth_succ _ hm]
  rw [hend]
  rcases hlt with hn | ⟨rfl, hmm⟩
  · -- in an earlier year: at the latest with December
    calc daysBeforeYear leap epoch n + daysBeforeMonth leap (epoch + n) (m + 1)
        ≤ daysBeforeYear leap epoch n + daysBeforeMonth leap (epoch + n) 13 :=
          Nat.add_le_add_left (daysBeforeMonth_mono _ (by omega)) _
      _ = daysBeforeYear leap epoch (n + 1) := by rw [daysBeforeMonth_thirteen]; rfl
      _ ≤ daysBeforeYear leap epoch n' := daysBeforeYear_mono hn
      _ ≤ monthStart leap epoch n' m' := Nat.le_add_right _ _
  · exact Nat.add_le_add_left (daysBeforeMonth_mono _ hmm) _

/-- The end of a month is the beginning of the next. -/
theorem exists_next_month {n m : ℕ} (hm : 1 ≤ m) (hm' : m ≤ 12) :
    ∃ n' m', (1 ≤ m' ∧ m' ≤ 12) ∧
      monthStart leap epoch n' m' = monthStart leap epoch n m + monthDays leap (epoch + n) m := by
  rcases hm'.lt_or_eq with hlt | rfl
  · refine ⟨n, m + 1, ⟨Nat.le_add_left 1 m, hlt⟩, ?_⟩
    rw [monthStart, daysBeforeMonth_succ _ hm, ← Nat.add_assoc, ← monthStart]
  · refine ⟨n + 1, 1, by decide, ?_⟩
    rw [monthStart, monthStart, Nat.add_assoc, ← daysBeforeMonth_succ _ hm, daysBeforeMonth_thirteen]
    rfl

/-- Months begin in order. -/
theorem monthStart_le {n m n' m' : ℕ} (hm : 1 ≤ m) (hm' : m ≤ 12)
    (hle : n < n' ∨ n = n' ∧ m ≤ m') : monthStart leap epoch n m ≤ monthStart leap epoch n' m' := by
  rcases hle with hn | ⟨rfl, hmm⟩
  · exact (Nat.le_add_right _ _).trans (monthStart_add_le hm hm' (.inl hn))
  · exact Nat.add_le_add_left (daysBeforeMonth_mono _ hmm) _

/-- **Inside a month no month begins.** -/
theorem not_first_of_month {c t n m n' m' : ℕ} (hm : 1 ≤ m ∧ m ≤ 12) (hm' : 1 ≤ m' ∧ m' ≤ 12)
    (hlo : c * monthStart leap epoch n m < t)
    (hhi : t < c * (monthStart leap epoch n m + monthDays leap (epoch + n) m)) :
    t ≠ c * monthStart leap epoch n' m' := by
  by_cases hlt : n < n' ∨ n = n' ∧ m < m'
  · exact (hhi.trans_le (Nat.mul_le_mul_left c (monthStart_add_le hm.1 hm.2 hlt))).ne
  · have hle := @monthStart_le leap epoch n' m' n m hm'.1 hm'.2 (by omega)
    exact ((Nat.mul_le_mul_left c hle).trans_lt hlo).ne'

/-- **A tick belongs to one month**: with `c` ticks to a day, the month that it
lies behind the beginning of, and not behind the end of. -/
theorem month_unique {c t n m n' m' : ℕ} (hm : 1 ≤ m ∧ m ≤ 12) (hm' : 1 ≤ m' ∧ m' ≤ 12)
    (h : c * monthStart leap epoch n m < t ∧
      t ≤ c * (monthStart leap epoch n m + monthDays leap (epoch + n) m))
    (h' : c * monthStart leap epoch n' m' < t ∧
      t ≤ c * (monthStart leap epoch n' m' + monthDays leap (epoch + n') m')) :
    n = n' ∧ m = m' := by
  -- of two different months the earlier one ends before `t`
  have key : ∀ {n m n' m' : ℕ}, 1 ≤ m ∧ m ≤ 12 →
      t ≤ c * (monthStart leap epoch n m + monthDays leap (epoch + n) m) →
      c * monthStart leap epoch n' m' < t → ¬ (n < n' ∨ n = n' ∧ m < m') := by
    intro n m n' m' hm hle hgt hlt
    have := Nat.mul_le_mul_left c (@monthStart_add_le leap epoch _ _ _ _ hm.1 hm.2 hlt)
    omega
  have h₁ := key hm h.2 h'.1
  have h₂ := key hm' h'.2 h.1
  omega

end Calendar
