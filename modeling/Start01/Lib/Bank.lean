/-
Start01/Lib/Bank.lean

A bank of registers, each with a lower and an upper limit.  A value is offered to a register, which
takes it if it is within the limits, and keeps its value if not.  After a list of offers a register
has the last value that it took (`offers_apply`), so within its limits if it was before
(`Within.offers`); where the limits exclude each other it has the first value for ever
(`offers_of_lt`).
-/
import Mathlib.Tactic
import Mathlib.Order.Interval.Set.Basic

namespace Bank

variable {ι α : Type*} [DecidableEq ι] [LinearOrder α]

/-- The limits of the registers. -/
structure Limits (ι α : Type*) where
  lo : ι → α
  hi : ι → α

/-- A register takes the value. -/
def Limits.Takes (l : Limits ι α) (o : ι × α) : Prop := l.lo o.1 ≤ o.2 ∧ o.2 ≤ l.hi o.1

instance Limits.decidableTakes (l : Limits ι α) : DecidablePred l.Takes :=
  fun o => inferInstanceAs (Decidable (l.lo o.1 ≤ o.2 ∧ o.2 ≤ l.hi o.1))

variable (l : Limits ι α)

/-- A value is offered to a register. -/
def offer (b : ι → α) (o : ι × α) : ι → α :=
  if l.Takes o then Function.update b o.1 o.2 else b

/-- Values are offered one after another. -/
def offers (b : ι → α) (os : List (ι × α)) : ι → α := os.foldl (offer l) b

/-- The value of a register is within its limits. -/
def Within (b : ι → α) (i : ι) : Prop := b i ∈ Set.Icc (l.lo i) (l.hi i)

variable {l} {b : ι → α}

theorem offer_of_takes {o : ι × α} (h : l.Takes o) : offer l b o = Function.update b o.1 o.2 :=
  if_pos h

theorem offer_of_not {o : ι × α} (h : ¬ l.Takes o) : offer l b o = b := if_neg h

theorem offer_of_ne {o : ι × α} {i : ι} (h : i ≠ o.1) : offer l b o i = b i := by
  unfold offer
  split
  · exact Function.update_of_ne h _ _
  · rfl

theorem offers_cons (o : ι × α) (os : List (ι × α)) :
    offers l b (o :: os) = offers l (offer l b o) os := rfl

theorem offers_append (os os' : List (ι × α)) :
    offers l b (os ++ os') = offers l (offers l b os) os' := List.foldl_append

/-- The values that a register takes. -/
def taken (l : Limits ι α) (i : ι) (os : List (ι × α)) : List α :=
  (os.filter fun o => i = o.1 ∧ l.Takes o).map Prod.snd

theorem taken_append (i : ι) (os os' : List (ι × α)) :
    taken l i (os ++ os') = taken l i os ++ taken l i os' := by
  rw [taken, List.filter_append, List.map_append]
  rfl

/-- **Last value.**  A register has the last value that it took, or else the first one. -/
theorem offers_apply (b : ι → α) (os : List (ι × α)) (i : ι) :
    offers l b os i = (taken l i os).getLast?.getD (b i) := by
  induction os using List.reverseRecOn with
  | nil => rfl
  | append_singleton os o ih =>
    rw [offers_append, taken_append]
    show offer l (offers l b os) o i = _
    by_cases h : i = o.1 ∧ l.Takes o
    · have hone : taken l i [o] = [o.2] := by
        rw [taken, List.filter_cons_of_pos (by simpa using h)]
        rfl
      rw [offer_of_takes h.2, h.1, Function.update_self, ← h.1, hone, List.getLast?_concat]
      rfl
    · have hone : taken l i [o] = [] := by
        rw [taken, List.filter_cons_of_neg (by simpa using h)]
        rfl
      rw [hone, List.append_nil, ← ih]
      by_cases hi : i = o.1
      · rw [offer_of_not fun ht => h ⟨hi, ht⟩]
      · exact offer_of_ne hi

theorem mem_taken {i : ι} {os : List (ι × α)} {v : α} (h : v ∈ taken l i os) :
    v ∈ Set.Icc (l.lo i) (l.hi i) := by
  obtain ⟨o, ho, rfl⟩ := List.mem_map.mp h
  obtain ⟨-, ho⟩ := List.mem_filter.mp ho
  obtain ⟨rfl, ht⟩ := of_decide_eq_true ho
  exact ht

/-- The limits are kept. -/
theorem Within.offers {i : ι} (h : Within l b i) (os : List (ι × α)) :
    Within l (offers l b os) i := by
  rw [Within, offers_apply]
  cases hlast : (taken l i os).getLast? with
  | none => exact h
  | some v => exact mem_taken (List.mem_of_getLast? hlast)

/-- Limits that exclude each other. -/
theorem offers_of_lt {i : ι} (h : l.hi i < l.lo i) (os : List (ι × α)) :
    Bank.offers l b os i = b i := by
  rw [offers_apply]
  have hnil : taken l i os = [] := by
    rw [List.eq_nil_iff_forall_not_mem]
    intro v hv
    obtain ⟨hlo, hhi⟩ := mem_taken hv
    exact absurd (hlo.trans hhi) (not_le.mpr h)
  rw [hnil]
  rfl

end Bank
