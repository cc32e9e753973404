/-
Start01/Lib/Splice.lean

Arrays in which a part is exchanged for another, in place.  An array is a function `ℕ → α`, of which
the first `n` cells are in use (`cells`).  The cells behind the part are moved, in the order that
does not lose any: downwards with

    for (i = lo; i < lo + n; i++)  f[i - c] = f[i];

and upwards with

    for (i = lo + n; i-- > lo; )  f[i] = f[i - c];

after which the new part is stored.  What is left is the splice of the lists (`cells_moveDown_put`,
`cells_moveUp_put`).
-/
import Mathlib.Tactic
import Mathlib.Logic.Function.Basic

namespace Splice

variable {α : Type*}

/-! ### The loops -/

/-- The cells in use. -/
def cells (f : ℕ → α) (n : ℕ) : List α := (List.range n).map f

/-- `n` cells from `lo` on are moved downwards by `c`, the first of them first. -/
def moveDown (lo c : ℕ) : ℕ → (ℕ → α) → ℕ → α
  | 0, f => f
  | n + 1, f => Function.update (moveDown lo c n f) (lo + n - c) (moveDown lo c n f (lo + n))

/-- `n` cells from `lo` on are filled from those `c` below, the last of them first. -/
def moveUp (lo c : ℕ) : ℕ → (ℕ → α) → ℕ → α
  | 0, f => f
  | n + 1, f => moveUp lo c n (Function.update f (lo + n) (f (lo + n - c)))

/-- A list is stored. -/
def put : ℕ → List α → (ℕ → α) → ℕ → α
  | _, [], f => f
  | at_, x :: xs, f => put (at_ + 1) xs (Function.update f at_ x)

theorem length_cells (f : ℕ → α) (n : ℕ) : (cells f n).length = n := by
  rw [cells, List.length_map, List.length_range]

theorem getElem?_cells (f : ℕ → α) {n i : ℕ} (h : i < n) : (cells f n)[i]? = some (f i) := by
  rw [cells, List.getElem?_map, List.getElem?_range h]
  rfl

/-- A part of the cells. -/
theorem take_drop_cells (f : ℕ → α) {n k l : ℕ} (h : k + l ≤ n) :
    ((cells f n).drop k).take l = cells (fun i => f (k + i)) l := by
  apply List.ext_getElem?
  intro i
  rw [List.getElem?_take]
  split
  · rename_i hi
    rw [List.getElem?_drop, getElem?_cells f (by omega), getElem?_cells _ hi]
  · exact (List.getElem?_eq_none (by rw [length_cells]; omega)).symm

/-- A list is the cells in use, if it is so at each place. -/
theorem cells_eq_iff {f : ℕ → α} {l : List α} :
    cells f l.length = l ↔ ∀ i, ∀ h : i < l.length, f i = l[i] := by
  constructor
  · intro h i hi
    have hcell := getElem?_cells f hi
    rw [h, List.getElem?_eq_getElem hi, Option.some_inj] at hcell
    exact hcell.symm
  · intro h
    apply List.ext_getElem?
    intro i
    by_cases hi : i < l.length
    · rw [getElem?_cells f hi, List.getElem?_eq_getElem hi, h i hi]
    · rw [List.getElem?_eq_none (by rw [length_cells]; omega), List.getElem?_eq_none (by omega)]

/-! ### What the loops leave -/

theorem moveDown_apply {lo c : ℕ} (hc : c ≤ lo) (f : ℕ → α) :
    ∀ n j, moveDown lo c n f j = if lo - c ≤ j ∧ j < lo + n - c then f (j + c) else f j := by
  intro n
  induction n with
  | zero =>
    intro j
    rw [if_neg (by omega)]
    rfl
  | succ n ih =>
    intro j
    rw [moveDown]
    by_cases hj : j = lo + n - c
    · subst hj
      -- the cell that is read has not been written yet
      rcases Nat.eq_zero_or_pos c with rfl | hpos
      · rw [Function.update_self, ih, if_neg (by omega), if_pos (by omega)]
        rfl
      · rw [Function.update_self, ih, if_neg (by omega), if_pos (by omega),
          Nat.sub_add_cancel (by omega)]
    · rw [Function.update_of_ne hj, ih]
      by_cases hin : lo - c ≤ j ∧ j < lo + n - c
      · rw [if_pos hin, if_pos (by omega)]
      · rw [if_neg hin, if_neg (by omega)]

theorem moveUp_apply {lo c : ℕ} (hc : c ≤ lo) :
    ∀ n (f : ℕ → α) j, moveUp lo c n f j = if lo ≤ j ∧ j < lo + n then f (j - c) else f j := by
  intro n
  induction n with
  | zero =>
    intro f j
    rw [if_neg (by omega)]
    rfl
  | succ n ih =>
    intro f j
    rw [moveUp, ih]
    by_cases hj : j = lo + n
    · subst hj
      rw [if_neg (by omega), Function.update_self, if_pos (by omega)]
    · by_cases hin : lo ≤ j ∧ j < lo + n
      · rw [if_pos hin, if_pos (by omega), Function.update_of_ne (by omega)]
      · rw [if_neg hin, if_neg (by omega), Function.update_of_ne hj]

theorem put_of_lt {j : ℕ} : ∀ (xs : List α) (at_ : ℕ) (f : ℕ → α), j < at_ → put at_ xs f j = f j := by
  intro xs
  induction xs with
  | nil => exact fun _ _ _ => rfl
  | cons x xs ih =>
    intro at_ f hj
    rw [put, ih _ _ (by omega), Function.update_of_ne (by omega)]

theorem put_of_le {j : ℕ} : ∀ (xs : List α) (at_ : ℕ) (f : ℕ → α), at_ + xs.length ≤ j →
    put at_ xs f j = f j := by
  intro xs
  induction xs with
  | nil => exact fun _ _ _ => rfl
  | cons x xs ih =>
    intro at_ f hj
    rw [List.length_cons] at hj
    rw [put, ih _ _ (by omega), Function.update_of_ne (by omega)]

theorem put_apply : ∀ (xs : List α) (at_ : ℕ) (f : ℕ → α) (i : ℕ) (h : i < xs.length),
    put at_ xs f (at_ + i) = xs[i] := by
  intro xs
  induction xs with
  | nil => exact fun _ _ i h => absurd h (Nat.not_lt_zero i)
  | cons x xs ih =>
    intro at_ f i h
    rw [put]
    cases i with
    | zero =>
      rw [put_of_lt _ _ _ (by omega)]
      exact Function.update_self at_ x f
    | succ i =>
      rw [show at_ + (i + 1) = at_ + 1 + i by omega, ih _ _ i (by simpa using h)]
      rfl

theorem put_concat (x : α) : ∀ (xs : List α) (at_ : ℕ) (f : ℕ → α),
    put at_ (xs ++ [x]) f = Function.update (put at_ xs f) (at_ + xs.length) x := by
  intro xs
  induction xs with
  | nil => exact fun _ _ => rfl
  | cons y ys ih =>
    intro at_ f
    rw [List.cons_append, put, ih, put, List.length_cons]
    congr 1
    omega

/-! ### Splices -/

/-- The cells from `start` to `stop` are exchanged for `new`. -/
def splice (l : List α) (start stop : ℕ) (new : List α) : List α :=
  l.take start ++ new ++ l.drop stop

theorem length_splice {l : List α} {start stop : ℕ} (h : start ≤ stop) (hstop : stop ≤ l.length)
    (new : List α) : (splice l start stop new).length + (stop - start) = l.length + new.length := by
  rw [splice, List.length_append, List.length_append, List.length_take, List.length_drop]
  omega

theorem mem_splice {l : List α} {start stop : ℕ} {new : List α} {x : α}
    (h : x ∈ splice l start stop new) : x ∈ l ∨ x ∈ new := by
  rw [splice, List.mem_append, List.mem_append] at h
  rcases h with (h | h) | h
  · exact .inl (List.mem_of_mem_take h)
  · exact .inr h
  · exact .inl (List.mem_of_mem_drop h)

/-- What is at a place of a splice. -/
theorem getElem?_splice_cells (f : ℕ → α) {n start : ℕ} (h : start ≤ n) (stop : ℕ)
    (new : List α) (i : ℕ) : (splice (cells f n) start stop new)[i]? = if i < start then some (f i)
      else if i < start + new.length then new[i - start]?
      else (cells f n)[stop + (i - start - new.length)]? := by
  have hleft : ((cells f n).take start).length = start := by
    rw [List.length_take, length_cells]
    omega
  rw [splice, List.append_assoc]
  split
  · rename_i hi
    rw [List.getElem?_append_left (by omega), List.getElem?_take_of_lt hi,
      getElem?_cells f (by omega)]
  · rw [List.getElem?_append_right (by omega), hleft]
    split
    · rw [List.getElem?_append_left (by omega)]
    · rw [List.getElem?_append_right (by omega), List.getElem?_drop]

/-- An array holds a splice, if it does at each place. -/
theorem cells_eq_splice_iff {f g : ℕ → α} {n start stop : ℕ} (h : start ≤ stop) (hn : stop ≤ n)
    (new : List α) : cells g (n + new.length - (stop - start)) = splice (cells f n) start stop new ↔
      (∀ j < start, g j = f j) ∧ (∀ i, ∀ h : i < new.length, g (start + i) = new[i]) ∧
      ∀ j, stop ≤ j → j < n → g (j + new.length - (stop - start)) = f j := by
  have hlen : (splice (cells f n) start stop new).length = n + new.length - (stop - start) := by
    have := length_splice h (by rwa [length_cells]) new (l := cells f n)
    rw [length_cells] at this
    omega
  have hget := getElem?_splice_cells f (h.trans hn) stop new
  rw [← hlen, cells_eq_iff]
  constructor
  · intro hcells
    have hcell : ∀ i < n + new.length - (stop - start),
        (splice (cells f n) start stop new)[i]? = some (g i) := fun i hi => by
      rw [List.getElem?_eq_getElem (by omega), hcells i (by omega)]
    refine ⟨fun j hj => ?_, fun i hi => ?_, fun j hj hjn => ?_⟩
    · have hgj := hcell j (by omega)
      rw [hget, if_pos hj, Option.some_inj] at hgj
      exact hgj.symm
    · have hgj := hcell (start + i) (by omega)
      rw [hget, if_neg (by omega), if_pos (by omega), Nat.add_sub_cancel_left,
        List.getElem?_eq_getElem hi, Option.some_inj] at hgj
      exact hgj.symm
    · have hgj := hcell (j + new.length - (stop - start)) (by omega)
      rw [hget, if_neg (by omega), if_neg (by omega),
        show stop + (j + new.length - (stop - start) - start - new.length) = j by omega,
        getElem?_cells f hjn, Option.some_inj] at hgj
      exact hgj.symm
  · rintro ⟨hbefore, hin, hbehind⟩ i hi
    have hsome : some (g i) = (splice (cells f n) start stop new)[i]? := by
      rw [hget]
      split
      · rename_i hlt
        rw [hbefore i hlt]
      split
      · rename_i hge hlt
        have hnew := hin (i - start) (by omega)
        rw [show start + (i - start) = i by omega] at hnew
        rw [List.getElem?_eq_getElem (by omega), hnew]
      · have hold := hbehind (stop + (i - start - new.length)) (by omega) (by omega)
        rw [getElem?_cells f (by omega), ← hold]
        congr 2
        omega
    rw [List.getElem?_eq_getElem hi, Option.some_inj] at hsome
    exact hsome

/-- Fewer cells: the rest is moved downwards. -/
theorem cells_moveDown_put (f : ℕ → α) {n start stop : ℕ} (h : start ≤ stop) (hn : stop ≤ n)
    {new : List α} (hnew : start + new.length ≤ stop) :
    cells (put start new (moveDown stop (stop - start - new.length) (n - stop) f))
        (n + new.length - (stop - start))
      = splice (cells f n) start stop new := by
  rw [cells_eq_splice_iff h hn]
  refine ⟨fun j hj => ?_, fun i hi => put_apply _ _ _ i hi, fun j hj hjn => ?_⟩
  · rw [put_of_lt _ _ _ hj, moveDown_apply (by omega), if_neg (by omega)]
  · rw [put_of_le _ _ _ (by omega), moveDown_apply (by omega), if_pos (by omega)]
    congr 1
    omega

/-- More cells, behind all the others. -/
theorem cells_put_end (f : ℕ → α) {n start : ℕ} (h : start ≤ n) (new : List α) :
    cells (put start new f) (n + new.length - (n - start)) = splice (cells f n) start n new := by
  rw [cells_eq_splice_iff h (Nat.le_refl n)]
  refine ⟨fun j hj => put_of_lt _ _ _ hj, fun i hi => put_apply _ _ _ i hi, fun j hj hjn => ?_⟩
  omega

/-- More cells, and the rest is moved upwards, but only within the cells that were in use: what is
left is the splice if the cells behind have it by chance. -/
theorem cells_moveUp_put_iff (f : ℕ → α) {n start stop : ℕ} (h : start ≤ stop) (hn : stop ≤ n)
    {new : List α} (hnew : stop ≤ start + new.length) (hc : start + new.length - stop ≤ stop) :
    cells (put start new (moveUp stop (start + new.length - stop) (n - stop) f))
        (n + new.length - (stop - start))
      = splice (cells f n) start stop new ↔
    ∀ j, stop ≤ j → j < n → n ≤ j + new.length - (stop - start) →
      f (j + new.length - (stop - start)) = f j := by
  rw [cells_eq_splice_iff h hn]
  have hmoved : ∀ j, stop ≤ j → j < n →
      put start new (moveUp stop (start + new.length - stop) (n - stop) f)
        (j + new.length - (stop - start))
      = if j + new.length - (stop - start) < n then f j
        else f (j + new.length - (stop - start)) := by
    intro j hj hjn
    rw [put_of_le _ _ _ (by omega), moveUp_apply hc]
    by_cases hlt : j + new.length - (stop - start) < n
    · rw [if_pos (by omega), if_pos hlt]
      congr 1
      omega
    · rw [if_neg (by omega), if_neg hlt]
  constructor
  · rintro ⟨-, -, hbehind⟩ j hj hjn hge
    rw [← hbehind j hj hjn, hmoved j hj hjn, if_neg (by omega)]
  · intro hchance
    refine ⟨fun j hj => ?_, fun i hi => put_apply _ _ _ i hi, fun j hj hjn => ?_⟩
    · rw [put_of_lt _ _ _ hj, moveUp_apply hc, if_neg (by omega)]
    · rw [hmoved j hj hjn]
      split
      · rfl
      · exact hchance j hj hjn (by omega)

end Splice
