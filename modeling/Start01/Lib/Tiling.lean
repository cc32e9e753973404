/-
Start01/Lib/Tiling.lean

An interval cut into blocks that are linked both ways.  At the start of every block
stands a header, which names the start of the next block, the start of the previous one,
and whether the block is in use.  Headers are given by a function `H : ℕ → Header` on
positions.

`Tiles H p a gs` says that from `a` on the headers describe the blocks `gs`, one behind
the other, the first of them with `p` for its predecessor.  A list of blocks says where
each block starts (`seams`), so an edit of the headers is an edit of the list:

* `Tiles.retag` — a block taken into use or given back;
* `Tiles.split` — a block cut in two;
* `Tiles.fuse` — two neighbours made one.

Each asks what the new headers say at the few seams concerned, and that all other seams
keep theirs.
-/
import Mathlib.Tactic

namespace Tiling

/-- What the header of a block says. -/
structure Header where
  next : ℕ
  prev : ℕ
  used : Bool
deriving DecidableEq

/-- A block: how long it is, header included, and whether it is in use. -/
structure Block where
  size : ℕ
  used : Bool
deriving DecidableEq

/-! ### Lists of blocks -/

/-- The length of the interval that the blocks fill. -/
def total : List Block → ℕ
  | [] => 0
  | g :: gs => g.size + total gs

/-- The length that the blocks in use fill. -/
def usedTotal : List Block → ℕ
  | [] => 0
  | g :: gs => (if g.used then g.size else 0) + usedTotal gs

/-- Where the blocks start. -/
def seams : ℕ → List Block → List ℕ
  | _, [] => []
  | a, g :: gs => a :: seams (a + g.size) gs

/-- Where the blocks in use start. -/
def usedSeams : ℕ → List Block → List ℕ
  | _, [] => []
  | a, g :: gs => (if g.used then [a] else []) ++ usedSeams (a + g.size) gs

/-- Where the blocks in use start, and how long they are. -/
def usedSpans : ℕ → List Block → List (ℕ × ℕ)
  | _, [] => []
  | a, g :: gs => (if g.used then [(a, g.size)] else []) ++ usedSpans (a + g.size) gs

/-- Where the last block starts, or `p` if there is none. -/
def lastSeam : ℕ → ℕ → List Block → ℕ
  | p, _, [] => p
  | _, a, g :: gs => lastSeam a (a + g.size) gs

/-- No two neighbours are both free. -/
def Separate (gs : List Block) : Prop :=
  (gs.map Block.used).IsChain fun u u' => u = true ∨ u' = true

@[simp] theorem total_nil : total [] = 0 := rfl

@[simp] theorem total_cons (g : Block) (gs : List Block) : total (g :: gs) = g.size + total gs :=
  rfl

@[simp] theorem total_append (l r : List Block) : total (l ++ r) = total l + total r := by
  induction l with
  | nil => simp
  | cons g l ih => simp [ih, Nat.add_assoc]

@[simp] theorem usedTotal_nil : usedTotal [] = 0 := rfl

@[simp] theorem usedTotal_cons (g : Block) (gs : List Block) :
    usedTotal (g :: gs) = (if g.used then g.size else 0) + usedTotal gs := rfl

@[simp] theorem usedTotal_append (l r : List Block) :
    usedTotal (l ++ r) = usedTotal l + usedTotal r := by
  induction l with
  | nil => simp
  | cons g l ih => simp [ih, Nat.add_assoc]

theorem mul_length_le_total {w : ℕ} {gs : List Block} (h : ∀ g ∈ gs, w ≤ g.size) :
    w * gs.length ≤ total gs := by
  induction gs with
  | nil => exact le_rfl
  | cons g gs ih =>
    rw [List.forall_mem_cons] at h
    have hgs := ih h.2
    have hg := h.1
    rw [List.length_cons, Nat.mul_succ, total_cons]
    omega

theorem dvd_total {d : ℕ} {gs : List Block} (h : ∀ g ∈ gs, d ∣ g.size) : d ∣ total gs := by
  induction gs with
  | nil => exact dvd_zero d
  | cons g gs ih =>
    rw [List.forall_mem_cons] at h
    exact dvd_add h.1 (ih h.2)

theorem usedTotal_le_total (gs : List Block) : usedTotal gs ≤ total gs := by
  induction gs with
  | nil => exact le_rfl
  | cons g gs ih =>
    have hg : (if g.used then g.size else 0) ≤ g.size := by split <;> omega
    exact Nat.add_le_add hg ih

@[simp] theorem seams_nil (a : ℕ) : seams a [] = [] := rfl

@[simp] theorem seams_cons (a : ℕ) (g : Block) (gs : List Block) :
    seams a (g :: gs) = a :: seams (a + g.size) gs := rfl

@[simp] theorem usedSeams_nil (a : ℕ) : usedSeams a [] = [] := rfl

@[simp] theorem usedSeams_cons (a : ℕ) (g : Block) (gs : List Block) :
    usedSeams a (g :: gs) = (if g.used then [a] else []) ++ usedSeams (a + g.size) gs := rfl

@[simp] theorem seams_append (l r : List Block) :
    ∀ a, seams a (l ++ r) = seams a l ++ seams (a + total l) r := by
  induction l with
  | nil => simp
  | cons g l ih => simp [ih, Nat.add_assoc]

@[simp] theorem usedSeams_append (l r : List Block) :
    ∀ a, usedSeams a (l ++ r) = usedSeams a l ++ usedSeams (a + total l) r := by
  induction l with
  | nil => simp
  | cons g l ih => simp [ih, Nat.add_assoc]

@[simp] theorem usedSpans_nil (a : ℕ) : usedSpans a [] = [] := rfl

@[simp] theorem usedSpans_cons (a : ℕ) (g : Block) (gs : List Block) :
    usedSpans a (g :: gs) = (if g.used then [(a, g.size)] else []) ++ usedSpans (a + g.size) gs :=
  rfl

@[simp] theorem usedSpans_append (l r : List Block) :
    ∀ a, usedSpans a (l ++ r) = usedSpans a l ++ usedSpans (a + total l) r := by
  induction l with
  | nil => simp
  | cons g l ih => simp [ih, Nat.add_assoc]

theorem usedSeams_subset (gs : List Block) : ∀ a, usedSeams a gs ⊆ seams a gs := by
  induction gs with
  | nil => exact fun a => List.Subset.refl _
  | cons g gs ih =>
    intro a x hx
    rw [usedSeams_cons, List.mem_append] at hx
    rw [seams_cons, List.mem_cons]
    refine hx.imp (fun h => ?_) (fun h => ih _ h)
    split at h
    · exact List.mem_singleton.mp h
    · cases h

/-- A seam is where the list of blocks can be cut in front of a block. -/
theorem mem_seams_iff {x : ℕ} {gs : List Block} :
    ∀ {a}, x ∈ seams a gs ↔ ∃ l g r, gs = l ++ g :: r ∧ x = a + total l := by
  induction gs with
  | nil => simp
  | cons g gs ih =>
    intro a
    rw [seams_cons, List.mem_cons, ih]
    constructor
    · rintro (rfl | ⟨l, g', r, rfl, rfl⟩)
      · exact ⟨[], g, gs, rfl, rfl⟩
      · exact ⟨g :: l, g', r, rfl, Nat.add_assoc ..⟩
    · rintro ⟨- | ⟨g₀, l⟩, g', r, heq, rfl⟩
      · exact .inl rfl
      · obtain ⟨rfl, rfl⟩ := List.cons.injEq .. ▸ heq
        exact .inr ⟨l, g', r, rfl, (Nat.add_assoc ..).symm⟩

/-- The same for the blocks in use. -/
theorem mem_usedSeams_iff {x : ℕ} {gs : List Block} :
    ∀ {a}, x ∈ usedSeams a gs ↔ ∃ l g r, gs = l ++ g :: r ∧ g.used = true ∧ x = a + total l := by
  induction gs with
  | nil => simp
  | cons g gs ih =>
    intro a
    rw [usedSeams_cons, List.mem_append, ih]
    constructor
    · rintro (hx | ⟨l, g', r, rfl, hu, rfl⟩)
      · split at hx
        · rename_i hu
          exact ⟨[], g, gs, rfl, hu, List.mem_singleton.mp hx⟩
        · cases hx
      · exact ⟨g :: l, g', r, rfl, hu, Nat.add_assoc ..⟩
    · rintro ⟨- | ⟨g₀, l⟩, g', r, heq, hu, rfl⟩
      · obtain ⟨rfl, rfl⟩ := List.cons.injEq .. ▸ heq
        exact .inl (by simp [hu])
      · obtain ⟨rfl, rfl⟩ := List.cons.injEq .. ▸ heq
        exact .inr ⟨l, g', r, rfl, hu, (Nat.add_assoc ..).symm⟩

theorem mem_usedSpans_iff {x n : ℕ} {gs : List Block} :
    ∀ {a}, (x, n) ∈ usedSpans a gs ↔
      ∃ l g r, gs = l ++ g :: r ∧ g.used = true ∧ x = a + total l ∧ n = g.size := by
  induction gs with
  | nil => simp
  | cons g gs ih =>
    intro a
    rw [usedSpans_cons, List.mem_append, ih]
    constructor
    · rintro (hx | ⟨l, g', r, rfl, hu, rfl, rfl⟩)
      · split at hx
        · rename_i hu
          obtain ⟨rfl, rfl⟩ := Prod.mk.injEq .. ▸ List.mem_singleton.mp hx
          exact ⟨[], g, gs, rfl, hu, rfl, rfl⟩
        · cases hx
      · exact ⟨g :: l, g', r, rfl, hu, Nat.add_assoc .., rfl⟩
    · rintro ⟨- | ⟨g₀, l⟩, g', r, heq, hu, rfl, rfl⟩
      · obtain ⟨rfl, rfl⟩ := List.cons.injEq .. ▸ heq
        exact .inl (by simp [hu])
      · obtain ⟨rfl, rfl⟩ := List.cons.injEq .. ▸ heq
        exact .inr ⟨l, g', r, rfl, hu, (Nat.add_assoc ..).symm, rfl⟩

theorem le_of_mem_seams {x a : ℕ} {gs : List Block} (h : x ∈ seams a gs) : a ≤ x := by
  obtain ⟨l, -, -, -, rfl⟩ := mem_seams_iff.mp h
  exact Nat.le_add_right ..

/-- Two neighbours have one seam more than the two made one: the one between them. -/
theorem mem_seams_pair {x a : ℕ} {l r : List Block} (g g' : Block) (u : Bool) :
    x ∈ seams a (l ++ g :: g' :: r) ↔
      x ∈ seams a (l ++ ⟨g.size + g'.size, u⟩ :: r) ∨ x = a + total l + g.size := by
  simp only [seams_append, seams_cons, List.mem_append, List.mem_cons, Nat.add_assoc]
  constructor
  · rintro (hx | hx | hx | hx)
    · exact .inl (.inl hx)
    · exact .inl (.inr (.inl hx))
    · exact .inr hx
    · exact .inl (.inr (.inr hx))
  · rintro ((hx | hx | hx) | hx)
    · exact .inl hx
    · exact .inr (.inl hx)
    · exact .inr (.inr (.inr hx))
    · exact .inr (.inr (.inl hx))

theorem seams_fuse_subset (a : ℕ) (g g' : Block) (r : List Block) (u : Bool) :
    seams a (⟨g.size + g'.size, u⟩ :: r) ⊆ seams a (g :: g' :: r) := fun _ hx =>
  (mem_seams_pair (l := []) g g' u).mpr (.inl hx)

/-- The blocks in front keep theirs. -/
theorem seams_append_subset {a : ℕ} {l r r' : List Block}
    (h : seams (a + total l) r' ⊆ seams (a + total l) r) :
    seams a (l ++ r') ⊆ seams a (l ++ r) := by
  intro x hx
  rw [seams_append, List.mem_append] at hx ⊢
  exact hx.imp_right fun hx => h hx

/-- In front of a place only the blocks in front of it count. -/
theorem mem_seams_append_of_lt {x a : ℕ} {l r : List Block} (hx : x < a + total l) :
    x ∈ seams a (l ++ r) ↔ x ∈ seams a l := by
  rw [seams_append, List.mem_append]
  exact or_iff_left fun h => Nat.not_lt.mpr (le_of_mem_seams h) hx

theorem mem_usedSeams_append_of_lt {x a : ℕ} {l r : List Block} (hx : x < a + total l) :
    x ∈ usedSeams a (l ++ r) ↔ x ∈ usedSeams a l := by
  rw [usedSeams_append, List.mem_append]
  exact or_iff_left fun h =>
    Nat.not_lt.mpr (le_of_mem_seams (usedSeams_subset _ _ h)) hx

/-- A block that starts at a seam ends inside the interval. -/
theorem add_le_of_mem_seams {w x a : ℕ} {gs : List Block} (hw : ∀ g ∈ gs, w ≤ g.size)
    (h : x ∈ seams a gs) : x + w ≤ a + total gs := by
  obtain ⟨l, g, r, rfl, rfl⟩ := mem_seams_iff.mp h
  have hg : w ≤ g.size := hw g (by simp)
  simp only [total_append, total_cons]
  omega

/-- The seams behind the first one stand clear of it. -/
theorem eq_or_add_le_of_mem_seams {w x a : ℕ} {gs : List Block} (hw : ∀ g ∈ gs, w ≤ g.size)
    (h : x ∈ seams a gs) : x = a ∨ a + w ≤ x := by
  obtain ⟨- | ⟨g₀, l⟩, g, r, rfl, rfl⟩ := mem_seams_iff.mp h
  · exact .inl rfl
  · have hg : w ≤ g₀.size := hw g₀ (by simp)
    refine .inr ?_
    rw [total_cons]
    omega

@[simp] theorem lastSeam_nil (p a : ℕ) : lastSeam p a [] = p := rfl

@[simp] theorem lastSeam_concat (l : List Block) (g : Block) :
    ∀ p a, lastSeam p a (l ++ [g]) = a + total l := by
  induction l with
  | nil => exact fun p a => rfl
  | cons g' l ih =>
    intro p a
    rw [List.cons_append, lastSeam, ih, total_cons, Nat.add_assoc]

/-! ### Free neighbours -/

/-- Only which blocks are in use matters. -/
theorem Separate.congr {gs gs' : List Block} (h : Separate gs)
    (hu : gs'.map Block.used = gs.map Block.used) : Separate gs' := by
  unfold Separate
  rw [hu]
  exact h

@[simp] theorem separate_nil : Separate [] := .nil

@[simp] theorem separate_singleton (g : Block) : Separate [g] := .singleton _

/-- Two lists that share a block are joined at it. -/
theorem separate_append_cons {l r : List Block} {g : Block} :
    Separate (l ++ g :: r) ↔ Separate (l ++ [g]) ∧ Separate (g :: r) := by
  simp only [Separate, List.map_append, List.map_cons, List.map_nil]
  exact List.isChain_split

theorem Separate.left {l r : List Block} (h : Separate (l ++ r)) : Separate l := by
  unfold Separate at h
  rw [List.map_append] at h
  exact h.left_of_append

theorem Separate.right {l r : List Block} (h : Separate (l ++ r)) : Separate r := by
  unfold Separate at h
  rw [List.map_append] at h
  exact h.right_of_append

theorem Separate.tail {r : List Block} {g : Block} (h : Separate (g :: r)) : Separate r :=
  Separate.right (l := [g]) h

theorem Separate.cons_cons {r : List Block} {g g' : Block} (h : Separate (g' :: r))
    (hu : g.used = true ∨ g'.used = true) : Separate (g :: g' :: r) :=
  List.IsChain.cons_cons hu h

/-- Behind a block in use anything may stand. -/
theorem Separate.cons_used {r : List Block} {g : Block} (h : Separate r) (hg : g.used = true) :
    Separate (g :: r) := by
  cases r with
  | nil => exact separate_singleton g
  | cons g' r => exact h.cons_cons (.inl hg)

/-- And in front of it. -/
theorem Separate.concat_used {l : List Block} {g : Block} (h : Separate l) (hg : g.used = true) :
    Separate (l ++ [g]) := by
  obtain rfl | ⟨l', b, rfl⟩ := List.eq_nil_or_concat' l
  · exact separate_singleton g
  · rw [List.append_assoc, List.singleton_append]
    exact separate_append_cons.mpr ⟨h, (separate_singleton g).cons_cons (.inr hg)⟩

/-! ### Tilings -/

/-- From `a` on the headers describe the blocks, the first of them with predecessor `p`. -/
def Tiles (H : ℕ → Header) : ℕ → ℕ → List Block → Prop
  | _, _, [] => True
  | p, a, g :: gs => H a = ⟨a + g.size, p, g.used⟩ ∧ Tiles H a (a + g.size) gs

variable {H H' : ℕ → Header} {p a : ℕ} {l r gs : List Block} {g : Block}

@[simp] theorem tiles_nil : Tiles H p a [] := trivial

theorem tiles_cons :
    Tiles H p a (g :: gs) ↔ H a = ⟨a + g.size, p, g.used⟩ ∧ Tiles H a (a + g.size) gs := Iff.rfl

/-- A tiling of two lists of blocks: one of each, joined at the seam between them. -/
theorem tiles_append : ∀ {p a : ℕ}, Tiles H p a (l ++ r) ↔
    Tiles H p a l ∧ Tiles H (lastSeam p a l) (a + total l) r := by
  induction l with
  | nil => simp
  | cons g l ih =>
    intro p a
    rw [List.cons_append, tiles_cons, tiles_cons, ih, and_assoc, total_cons, Nat.add_assoc]
    exact Iff.rfl

/-- A tiling reads only the headers at its seams. -/
theorem Tiles.congr : ∀ {p a : ℕ}, Tiles H p a gs → (∀ x ∈ seams a gs, H' x = H x) →
    Tiles H' p a gs := by
  induction gs with
  | nil => exact fun _ _ => trivial
  | cons g gs ih =>
    rintro p a ⟨hg, hgs⟩ hsame
    rw [seams_cons, List.forall_mem_cons] at hsame
    exact ⟨hsame.1.trans hg, ih hgs hsame.2⟩

/-- The first block gets another predecessor. -/
theorem Tiles.reprev {w q : ℕ} (h : Tiles H p a gs) (hw : ∀ g ∈ gs, w ≤ g.size) (hpos : 0 < w)
    (hH : ∀ x ∈ seams a gs, H' x = if x = a then { H x with prev := q } else H x) :
    Tiles H' q a gs := by
  cases gs with
  | nil => trivial
  | cons g gs =>
    rw [seams_cons, List.forall_mem_cons] at hH
    refine ⟨?_, h.2.congr fun x hx => ?_⟩
    · rw [hH.1, if_pos rfl, h.1]
    · have hge : a + g.size ≤ x := le_of_mem_seams hx
      have hg : w ≤ g.size := hw g List.mem_cons_self
      rw [hH.2 x hx, if_neg (by omega)]

/-- The headers determine the blocks. -/
theorem Tiles.unique {gs' : List Block} : ∀ {p a : ℕ}, Tiles H p a gs → Tiles H p a gs' →
    total gs = total gs' → (∀ g ∈ gs, 0 < g.size) → (∀ g ∈ gs', 0 < g.size) → gs = gs' := by
  induction gs generalizing gs' with
  | nil =>
    intro p a _ _ htotal _ hpos
    cases gs' with
    | nil => rfl
    | cons g' gs' =>
      have hg' := hpos g' List.mem_cons_self
      rw [total_nil, total_cons] at htotal
      omega
  | cons g gs ih =>
    intro p a h h' htotal hpos hpos'
    cases gs' with
    | nil =>
      have hg := hpos g List.mem_cons_self
      rw [total_nil, total_cons] at htotal
      omega
    | cons g' gs' =>
      have hhd := h.1.symm.trans h'.1
      rw [Header.mk.injEq, Nat.add_left_cancel_iff] at hhd
      have hsize : g = g' := by
        cases g
        cases g'
        exact congrArg₂ Block.mk hhd.1 hhd.2.2
      subst hsize
      rw [total_cons, total_cons, Nat.add_left_cancel_iff] at htotal
      rw [List.forall_mem_cons] at hpos hpos'
      rw [ih h.2 h'.2 htotal hpos.2 hpos'.2]

/-- The header of a block in a tiling. -/
theorem Tiles.header (h : Tiles H p a (l ++ g :: r)) :
    H (a + total l) = ⟨a + total l + g.size, lastSeam p a l, g.used⟩ :=
  (tiles_append.mp h).2.1

/-- From a seam, `next` leads to a seam, or to the end. -/
theorem Tiles.next_mem {x : ℕ} (h : Tiles H p a gs) (hx : x ∈ seams a gs) :
    (H x).next ∈ seams a gs ∨ (H x).next = a + total gs := by
  obtain ⟨l, g, r, rfl, rfl⟩ := mem_seams_iff.mp hx
  rw [h.header]
  cases r with
  | nil => exact .inr (by simp [Nat.add_assoc])
  | cons g' r => exact .inl (by simp [Nat.add_assoc])

/-! ### Edits -/

section Edits

variable {w : ℕ}

/-- A block is taken into use, or given back. -/
theorem Tiles.retag {u : Bool} (h : Tiles H p a (l ++ g :: r))
    (hl : ∀ x ∈ seams a l, H' x = H x)
    (hg : H' (a + total l) = { H (a + total l) with used := u })
    (hr : ∀ x ∈ seams (a + total l + g.size) r, H' x = H x) :
    Tiles H' p a (l ++ { g with used := u } :: r) := by
  obtain ⟨hpre, hhd, hpost⟩ := tiles_append.mp h
  refine tiles_append.mpr ⟨hpre.congr hl, ?_, hpost.congr hr⟩
  rw [hg, hhd]

/-- A block is cut in two: the first part is `n` long, the second is free. -/
theorem Tiles.split {u u' : Bool} {n m : ℕ} (h : Tiles H p a (l ++ ⟨n + m, u'⟩ :: r))
    (hw : ∀ g ∈ r, w ≤ g.size) (hpos : 0 < w)
    (hl : ∀ x ∈ seams a l, H' x = H x)
    (hg : H' (a + total l) = ⟨a + total l + n, (H (a + total l)).prev, u⟩)
    (hnew : H' (a + total l + n) = ⟨a + total l + n + m, a + total l, false⟩)
    (hr : ∀ x ∈ seams (a + total l + n + m) r, H' x =
      if x = a + total l + n + m then { H x with prev := a + total l + n } else H x) :
    Tiles H' p a (l ++ ⟨n, u⟩ :: ⟨m, false⟩ :: r) := by
  obtain ⟨hpre, hhd, hpost⟩ := tiles_append.mp h
  refine tiles_append.mpr ⟨hpre.congr hl, ?_, hnew, ?_⟩
  · rw [hg, hhd]
  · rw [← Nat.add_assoc] at hpost
    exact hpost.reprev hw hpos hr

/-- Two neighbours become one block. -/
theorem Tiles.fuse {g' : Block} (h : Tiles H p a (l ++ g :: g' :: r))
    (hw : ∀ g ∈ r, w ≤ g.size) (hpos : 0 < w)
    (hl : ∀ x ∈ seams a l, H' x = H x)
    (hg : H' (a + total l) = { H (a + total l) with next := a + total l + g.size + g'.size })
    (hr : ∀ x ∈ seams (a + total l + g.size + g'.size) r, H' x =
      if x = a + total l + g.size + g'.size then { H x with prev := a + total l } else H x) :
    Tiles H' p a (l ++ ⟨g.size + g'.size, g.used⟩ :: r) := by
  obtain ⟨hpre, hhd, -, hpost⟩ := tiles_append.mp h
  refine tiles_append.mpr ⟨hpre.congr hl, ?_, ?_⟩
  · rw [hg, hhd]
    exact congrArg (Header.mk · _ _) (Nat.add_assoc ..)
  · rw [show a + total l + (g.size + g'.size) = a + total l + g.size + g'.size from
      (Nat.add_assoc ..).symm]
    exact hpost.reprev hw hpos hr

end Edits

end Tiling
