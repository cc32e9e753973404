/-
Start01/Lib/Ring.lean

Rings of memory cells.  `size` cells of a memory `m : ℕ → α` are used over and over:
element number `i` of a stream has the cell `i % size`.  The elements `start`, …,
`start + n - 1` are `window size m start n`.

A block is copied to or from a ring in two pieces, up to the end of the cells and
from the beginning on (`scatter_two_pieces`, `window_two_pieces`).  Writing behind a
window extends it (`window_write`) and, in a full ring, replaces its oldest element
(`window_overwrite`).
-/
import Start01.Lib.Scatter

namespace Ring

open Scatter

variable {α : Type*} (size : ℕ) (m : ℕ → α)

/-- The `n` elements from number `start` on. -/
def window (start n : ℕ) : List α := (List.range n).map fun i => m ((start + i) % size)

/-- The cells of the elements from number `start` on. -/
def cell (start i : ℕ) : ℕ := (start + i) % size

variable {size m}

@[simp] theorem window_length (start n : ℕ) : (window size m start n).length = n := by
  simp [window]

@[simp] theorem window_zero (start : ℕ) : window size m start 0 = [] := rfl

theorem window_add (start l n : ℕ) :
    window size m start (l + n) = window size m start l ++ window size m (start + l) n := by
  simp [window, List.range_add, Nat.add_assoc]

/-- The last element apart. -/
theorem window_succ_last (start n : ℕ) :
    window size m start (n + 1) = window size m start n ++ [m (cell size start n)] := by
  rw [window_add]
  rfl

theorem take_window {start n l : ℕ} (h : l ≤ n) :
    (window size m start n).take l = window size m start l := by
  obtain ⟨k, rfl⟩ := Nat.exists_eq_add_of_le h
  rw [window_add, List.take_left' (window_length start l)]

theorem drop_window {start n l : ℕ} (h : l ≤ n) :
    (window size m start n).drop l = window size m (start + l) (n - l) := by
  obtain ⟨k, rfl⟩ := Nat.exists_eq_add_of_le h
  rw [window_add, List.drop_left' (window_length start l), Nat.add_sub_cancel_left]

/-- Only the place in the ring counts. -/
theorem window_congr_start {start start' : ℕ} (h : start % size = start' % size) (n : ℕ) :
    window size m start n = window size m start' n := by
  refine List.map_congr_left fun i _ => ?_
  rw [Nat.add_mod, h, ← Nat.add_mod]

theorem window_congr {m' : ℕ → α} {start n : ℕ}
    (h : ∀ i < n, m ((start + i) % size) = m' ((start + i) % size)) :
    window size m start n = window size m' start n :=
  List.map_congr_left fun i hi => h i (List.mem_range.mp hi)

/-- Fewer than `size` elements apart, elements have different cells. -/
theorem cell_inj {start i j : ℕ} (hi : i < size) (hj : j < size)
    (h : cell size start i = cell size start j) : i = j := by
  have hmod := (Nat.ModEq.add_left_cancel' start h : i ≡ j [MOD size])
  rwa [Nat.ModEq, Nat.mod_eq_of_lt hi, Nat.mod_eq_of_lt hj] at hmod

/-! ### Copies in two pieces -/

theorem cell_of_lt {start i : ℕ} (h : start % size + i < size) :
    cell size start i = start % size + i := by
  rw [cell, ← Nat.mod_add_mod, Nat.mod_eq_of_lt h]

theorem cell_of_le {start i : ℕ} (h : size ≤ start % size + i) (hi : i ≤ size)
    (hsize : 0 < size) : cell size start i = i - (size - start % size) := by
  have hlt := Nat.mod_lt start hsize
  rw [cell, ← Nat.mod_add_mod, Nat.mod_eq_sub_mod h, Nat.mod_eq_of_lt (by omega)]
  omega

/-- The cell of element `i`, for a block whose first piece has `l` elements. -/
theorem cell_of_piece {start n l i : ℕ} (hl : l = min n (size - start % size)) (hi : i < n)
    (hn : n ≤ size) (hsize : 0 < size) :
    (if i < l then start % size + i else i - l) = cell size start i := by
  split
  · exact (cell_of_lt (by omega)).symm
  · rw [cell_of_le (by omega) (by omega) hsize]
    omega

/-- A block of at most `size` elements is written in two pieces. -/
theorem scatter_two_pieces {start n : ℕ} (hn : n ≤ size) (hsize : 0 < size) (b : ℕ → α) {l : ℕ}
    (hl : l = min n (size - start % size)) :
    scatter (scatter m (fun i => start % size + i) b l) (fun i => i) (fun i => b (l + i)) (n - l)
      = scatter m (cell size start) b n := by
  have hlt := Nat.mod_lt start hsize
  obtain ⟨k, rfl⟩ := Nat.exists_eq_add_of_le (show l ≤ n by omega)
  rw [scatter_add, Nat.add_sub_cancel_left]
  have hfirst : scatter m (fun i => start % size + i) b l = scatter m (cell size start) b l :=
    scatter_congr fun i hi => ⟨(cell_of_lt (by omega)).symm, rfl⟩
  rw [hfirst]
  refine scatter_congr fun i hi => ⟨?_, rfl⟩
  -- only a block that reaches the end has a second piece
  rw [cell_of_le (by omega) (by omega) hsize]
  omega

/-- … and read in two pieces. -/
theorem window_two_pieces {start n : ℕ} (hn : n ≤ size) (hsize : 0 < size) {l : ℕ}
    (hl : l = min n (size - start % size)) :
    (List.range l).map (fun i => m (start % size + i)) ++ (List.range (n - l)).map m
      = window size m start n := by
  have hlt := Nat.mod_lt start hsize
  obtain ⟨k, rfl⟩ := Nat.exists_eq_add_of_le (show l ≤ n by omega)
  rw [window_add, Nat.add_sub_cancel_left]
  congr 1
  · refine List.map_congr_left fun i hi => ?_
    rw [List.mem_range] at hi
    exact congrArg m (cell_of_lt (by omega)).symm
  · refine List.map_congr_left fun i hi => ?_
    rw [List.mem_range] at hi
    have hcell := @cell_of_le size start (l + i) (by omega) (by omega) hsize
    rw [cell, ← Nat.add_assoc] at hcell
    rw [hcell]
    congr 1
    omega

/-! ### Writing behind a window -/

/-- Written behind a window with room for them, elements extend it. -/
theorem window_write {start n k : ℕ} (h : n + k ≤ size) (b : ℕ → α) :
    window size (scatter m (cell size (start + n)) b k) start (n + k)
      = window size m start n ++ (List.range k).map b := by
  have hne : ∀ i < n, ∀ j < k, (start + i) % size ≠ cell size (start + n) j := by
    intro i hi j hj heq
    rw [cell, Nat.add_assoc start n j] at heq
    exact absurd (@cell_inj size start i (n + j) (by omega) (by omega) heq) (by omega)
  rw [window_add]
  congr 1
  · exact window_congr fun i hi => scatter_of_forall_ne fun j hj => hne i hi j hj
  · refine List.map_congr_left fun i hi => ?_
    rw [List.mem_range] at hi
    exact scatter_apply hi fun j hj hij => cell_inj (by omega) (by omega) hij

/-- One element more. -/
theorem window_push {start n : ℕ} (h : n < size) (c : α) :
    window size (Function.update m ((start + n) % size) c) start (n + 1)
      = window size m start n ++ [c] :=
  @window_write α size m start n 1 h fun _ => c

/-- In a full ring the new element takes the cell of the oldest. -/
theorem window_overwrite {start : ℕ} (hsize : 0 < size) (c : α) :
    window size (Function.update m ((start + size) % size) c) (start + 1) size
      = (window size m start size).drop 1 ++ [c] := by
  obtain ⟨n, rfl⟩ := Nat.exists_eq_add_of_le' hsize
  have hpush := @window_push α (n + 1) m (start + 1) n (Nat.lt_succ_self n) c
  rw [Nat.add_assoc, Nat.add_comm 1 n] at hpush
  rw [hpush, drop_window (Nat.le_add_left 1 n), Nat.add_sub_cancel]

end Ring
