/-
Start01/HeapOps.lean

What `rt_malloc`, `rt_free`, `rt_realloc` and `rt_calloc` do to the blocks.  `Tidy A h gs`
adds to the layout of the arena that no two free blocks are neighbours, that the data of
every block in use starts in front of `heap_end`, and that the statistics are those of the
blocks.  Each call keeps it, for other blocks, and says which pointers `Holds` then: those
to the data of a block in use.

The one call left out is an `rt_calloc` whose `memset` goes beyond its block.
-/
import Start01.HeapTiles

namespace Start01

open Tiling

/-- The arena is laid out in the blocks, and they are kept as the allocator keeps them. -/
structure Tidy (A : Arena) (h : Heap) (gs : List Block) : Prop extends Laid A h gs where
  separate : Separate gs
  inside : ∀ o ∈ usedSeams 0 gs, o + 16 < A.len
  usedMem : h.usedMem.toNat = usedTotal gs
  maxMem : h.usedMem ≤ h.maxMem

/-- The pointer is to the data of a block in use. -/
def Holds (A : Arena) (gs : List Block) (p : UInt32) : Prop :=
  ∃ o ∈ usedSeams 0 gs, p.toNat = A.base + o + 16

variable {A : Arena} {h h' : Heap} {l r gs gs' : List Block} {g : Block} {mem p ptr size : UInt32}

/-! ### Pointers -/

/-- A block more in use is a pointer more. -/
theorem holds_insert {o : ℕ} (hp : p.toNat = A.base + o + 16)
    (h : ∀ x, x ∈ usedSeams 0 gs' ↔ x = o ∨ x ∈ usedSeams 0 gs) (q : UInt32) :
    Holds A gs' q ↔ q = p ∨ Holds A gs q := by
  constructor
  · rintro ⟨x, hx, hq⟩
    obtain rfl | hx := (h x).mp hx
    · exact .inl (UInt32.toNat_inj.mp (hq.trans hp.symm))
    · exact .inr ⟨x, hx, hq⟩
  · rintro (rfl | ⟨x, hx, hq⟩)
    · exact ⟨o, (h o).mpr (.inl rfl), hp⟩
    · exact ⟨x, (h x).mpr (.inr hx), hq⟩

/-- A block less is a pointer less. -/
theorem holds_erase {o : ℕ} (hp : p.toNat = A.base + o + 16)
    (h : ∀ x, x ∈ usedSeams 0 gs' ↔ x ≠ o ∧ x ∈ usedSeams 0 gs) (q : UInt32) :
    Holds A gs' q ↔ q ≠ p ∧ Holds A gs q := by
  constructor
  · rintro ⟨x, hx, hq⟩
    obtain ⟨hne, hx⟩ := (h x).mp hx
    refine ⟨?_, x, hx, hq⟩
    rintro rfl
    omega
  · rintro ⟨hne, x, hx, hq⟩
    refine ⟨x, (h x).mpr ⟨?_, hx⟩, hq⟩
    rintro rfl
    exact hne (UInt32.toNat_inj.mp (hq.trans hp.symm))

/-- A pointer that holds is to a block of the list. -/
theorem Holds.exists_block (hp : Holds A gs p) :
    ∃ l g r, gs = l ++ g :: r ∧ g.used = true ∧ p.toNat = A.base + total l + 16 := by
  obtain ⟨o, ho, hp⟩ := hp
  obtain ⟨l, g, r, rfl, hg, rfl⟩ := mem_usedSeams_iff.mp ho
  exact ⟨l, g, r, rfl, hg, by rw [hp, Nat.zero_add]⟩

theorem Holds.ne_zero (hp : Holds A gs p) : p ≠ 0 := by
  rintro rfl
  obtain ⟨o, -, hp⟩ := hp
  have hzero : (0 : UInt32).toNat = 0 := rfl
  omega

/-- A block is marked as free, and `lfree` moves to it if it was behind. -/
theorem Laid.unuse (hL : Laid A h (l ++ g :: r)) (hmem : mem.toNat = A.base + Tiling.total l) :
    let h₁ := (h.setUsed mem 0).setMagic mem 0
    Laid A (if mem < h₁.lfree then { h₁ with lfree := mem } else h₁)
      (l ++ { g with used := false } :: r) := by
  intro h₁
  have hL₁ : Laid A h₁ (l ++ { g with used := false } :: r) := (hL.setUsed hmem).setMagic hmem
  split
  · exact hL₁.setLfree hmem (.inl (by simp))
  · exact hL₁

namespace Tidy

/-- What is written into the data of a block leaves the blocks. -/
theorem setRam (hS : Tidy A h (l ++ g :: r)) {ram : ℕ → UInt8}
    (hram : ∀ a, a < A.base + total l + 16 ∨ A.base + total l + g.size ≤ a →
      ram a = h.ram a) : Tidy A { h with ram := ram } (l ++ g :: r) :=
  ⟨hS.toLaid.setRam hram, hS.separate, hS.inside, hS.usedMem, hS.maxMem⟩

/-! ### rt_free -/

/-- The block in use at `mem` is given back. -/
theorem release (hS : Tidy A h (l ++ g :: r)) (hg : g.used = true)
    (hmem : mem.toNat = A.base + total l) :
    ∃ gs, Tidy A (h.release mem) gs ∧
      usedSeams 0 gs = usedSeams 0 l ++ usedSeams (total l + g.size) r ∧
      seams 0 gs ⊆ seams 0 (l ++ g :: r) ∧ (h.release mem).lfree.toNat ≤ h.lfree.toNat ∧
      (h.release mem).lfree.toNat ≤ mem.toNat := by
  let h₁ := (h.setUsed mem 0).setMagic mem 0
  let h₂ := if mem < h₁.lfree then { h₁ with lfree := mem } else h₁
  have hL₂ : Laid A h₂ (l ++ { g with used := false } :: r) := hS.toLaid.unuse hmem
  have hstats : h₂.usedMem = h.usedMem ∧ h₂.maxMem = h.maxMem := by
    unfold h₂
    split <;> exact ⟨rfl, rfl⟩
  have hn : (h₂.next mem - (mem - h₂.heapPtr)).toNat = g.size := hL₂.toNat_extent hmem
  have hused := hS.usedMem
  rw [usedTotal_append, usedTotal_cons, if_pos hg] at hused
  have hsub := toNat_sub_of_le (a := h.usedMem) (b := h₂.next mem - (mem - h₂.heapPtr))
    (by rw [hn, hused]; omega)
  have hL₃ := hL₂.setStats (h₂.usedMem - (h₂.next mem - (mem - h₂.heapPtr))) h₂.maxMem
  obtain ⟨gs, hgs, hsep, hseams, htotal, hsubset⟩ :=
    hL₃.plugHoles hmem rfl hS.separate.left hS.separate.right.tail
  have hlfree : (h.release mem).lfree.toNat ≤ h₂.lfree.toNat :=
    (hL₃.lfree_plugHoles hmem rfl hS.separate.right.tail).1
  have hlow : h₂.lfree.toNat ≤ h.lfree.toNat ∧ h₂.lfree.toNat ≤ mem.toNat := by
    unfold h₂
    split
    · rename_i hlt
      exact ⟨(UInt32.lt_iff_toNat_lt.mp hlt).le, le_rfl⟩
    · rename_i hlt
      exact ⟨le_rfl, Nat.not_lt.mp fun hc => hlt (UInt32.lt_iff_toNat_lt.mpr hc)⟩
  have hrel := Heap.stats_plugHoles { h₂ with
    usedMem := h₂.usedMem - (h₂.next mem - (mem - h₂.heapPtr)) } mem
  change (h.release mem).usedMem = _ ∧ (h.release mem).maxMem = _ at hrel
  simp only [hstats] at hrel
  replace hseams : usedSeams 0 gs = usedSeams 0 l ++ usedSeams (total l + g.size) r := by
    simpa using hseams
  replace hsubset : seams 0 gs ⊆ seams 0 (l ++ g :: r) := by simpa using hsubset
  refine ⟨gs, ⟨hgs, hsep, fun o ho => hS.inside o ?_, ?_, ?_⟩, hseams, hsubset,
    hlfree.trans hlow.1, hlfree.trans hlow.2⟩
  · rw [hseams, List.mem_append] at ho
    rw [usedSeams_append, usedSeams_cons, List.mem_append, List.mem_append, Nat.zero_add]
    exact ho.imp_right .inr
  · rw [hrel.1, hsub, hn, hused, htotal]
    simp
    omega
  · have hmax := UInt32.le_iff_toNat_le.mp hS.maxMem
    rw [hrel.1, hrel.2, UInt32.le_iff_toNat_le, hsub]
    omega

/-- What `rt_free` and `rt_realloc` check lets the pointers through that hold. -/
theorem in_arena (hS : Tidy A h gs) (hp : Holds A gs p) : ¬ (p < h.heapPtr ∨ p ≥ h.heapEnd) := by
  obtain ⟨o, ho, hp⟩ := hp
  have hlt := hS.inside o ho
  rw [UInt32.lt_iff_toNat_lt, ge_iff_le, UInt32.le_iff_toNat_le, hS.heapPtr, hS.heapEnd]
  omega

/-- The header in front of the data of a block. -/
theorem toNat_sub_header {o : ℕ} (hp : p.toNat = A.base + o + 16) :
    (p - sizeofStructMem).toNat = A.base + o := by
  rw [toNat_sub_of_le] <;> rw [toNat_sizeofStructMem] <;> omega

/-- **`rt_free` of a block in use.** -/
theorem free (hS : Tidy A h gs) (hp : Holds A gs p) :
    ∃ gs', Tidy A (h.free p) gs' ∧ ∀ x, Holds A gs' x ↔ x ≠ p ∧ Holds A gs x := by
  have hin := hS.in_arena hp
  have hne := hp.ne_zero
  obtain ⟨l, g, r, rfl, hg, hpt⟩ := hp.exists_block
  have hgs : 16 ≤ g.size := hS.le_size g (by simp)
  have hfree : h.free p = h.release (p - sizeofStructMem) := by
    rw [Heap.free, if_neg hne, if_neg hin]
  obtain ⟨gs', hS', hseams, -⟩ := hS.release hg (toNat_sub_header hpt)
  refine ⟨gs', hfree ▸ hS', holds_erase hpt fun x => ?_⟩
  rw [hseams, usedSeams_append, usedSeams_cons, Nat.zero_add]
  simp only [List.mem_append, hg, if_true, List.mem_singleton]
  constructor
  · rintro (hx | hx)
    · have hle := hS.apart_left (usedSeams_subset _ _ hx)
      exact ⟨by omega, .inl hx⟩
    · have hle := le_of_mem_seams (usedSeams_subset _ _ hx)
      exact ⟨by omega, .inr (.inr hx)⟩
  · rintro ⟨hne, hx | hx | hx⟩
    · exact .inl hx
    · exact absurd hx hne
    · exact .inr hx

end Tidy

/-! ### The loops of rt_malloc -/

/-- What `rt_malloc` can do: refuse the size, find no block, or hand out the block its search
has found. -/
theorem Heap.malloc_cases {fuel : ℕ} (heq : h.malloc fuel size = some (p, h')) :
    ((size = 0 ∨ h.memSizeAligned < rtAlign size) ∨
        h.search (granule size) fuel (h.lfree - h.heapPtr) = some none) ∧ p = 0 ∧ h' = h ∨
      ∃ found, h.search (granule size) fuel (h.lfree - h.heapPtr) = some (some found) ∧
        h.grant fuel found (granule size) = some (p, h') := by
  unfold malloc at heq
  split at heq
  · rename_i hzero
    obtain ⟨rfl, rfl⟩ := Prod.mk.injEq .. ▸ Option.some.inj heq
    exact .inl ⟨.inl (.inl hzero), rfl, rfl⟩
  split at heq
  · rename_i hmost
    obtain ⟨rfl, rfl⟩ := Prod.mk.injEq .. ▸ Option.some.inj heq
    exact .inl ⟨.inl (.inr hmost), rfl, rfl⟩
  split at heq
  · cases heq
  · rename_i hsearch
    obtain ⟨rfl, rfl⟩ := Prod.mk.injEq .. ▸ Option.some.inj heq
    exact .inl ⟨.inr hsearch, rfl, rfl⟩
  · rename_i found hsearch
    exact .inr ⟨found, hsearch, heq⟩

theorem Heap.malloc_eq_some {fuel : ℕ} (heq : h.malloc fuel size = some (p, h')) :
    p = 0 ∧ h' = h ∨ ∃ found, h.search (granule size) fuel (h.lfree - h.heapPtr) =
      some (some found) ∧ h.grant fuel found (granule size) = some (p, h') :=
  (malloc_cases heq).imp_left And.right

/-- A block that is found is taken into use; if it was the one at `lfree`, that goes on. -/
theorem Heap.grant_cases {fuel : ℕ} {found : UInt32}
    (heq : h.grant fuel found size = some (p, h')) :
    p = h.entry found + sizeofStructMem ∧
      (h' = h.take found size ∨ h.entry found = (h.take found size).lfree ∧
        ∃ lfree, (h.take found size).skipUsed fuel (h.entry found) = some lfree ∧
          h' = { h.take found size with lfree := lfree }) := by
  unfold grant at heq
  simp only at heq
  split at heq
  · rename_i hat
    obtain ⟨lfree, hskip, hres⟩ := Option.map_eq_some_iff.mp heq
    obtain ⟨rfl, rfl⟩ := Prod.mk.injEq .. ▸ hres
    exact ⟨rfl, .inr ⟨hat, lfree, hat ▸ hskip, rfl⟩⟩
  · obtain ⟨rfl, rfl⟩ := Prod.mk.injEq .. ▸ Option.some.inj heq
    exact ⟨rfl, .inl rfl⟩

/-- `rt_realloc` of NULL refuses the size, or is `rt_malloc`. -/
theorem Heap.realloc_null {fuel : ℕ} {q newsize : UInt32}
    (heq : h.realloc fuel 0 newsize = some (q, h')) :
    q = 0 ∧ h' = h ∨ h.malloc fuel (rtAlign newsize) = some (q, h') := by
  unfold Heap.realloc at heq
  simp only at heq
  split at heq
  · obtain ⟨rfl, rfl⟩ := Prod.mk.injEq .. ▸ Option.some.inj heq
    exact .inl ⟨rfl, rfl⟩
  · rw [if_pos trivial] at heq
    exact .inr heq

namespace Laid

/-- A place at a block, or at the end. -/
theorem place_le (hL : Laid A h gs) {o : ℕ} (ho : o ∈ seams 0 gs ∨ o = A.len) :
    o ≤ A.len := by
  obtain ho | rfl := ho
  · have hle := add_le_of_mem_seams hL.le_size ho
    rw [Nat.zero_add, hL.total] at hle
    omega
  · exact le_rfl

/-- From a place, `next` leads to a place. -/
theorem next_place (hL : Laid A h gs) {o : ℕ} (ho : o ∈ seams 0 gs ∨ o = A.len)
    (hmem : mem.toNat = A.base + o) :
    (h.next mem).toNat ∈ seams 0 gs ∨ (h.next mem).toNat = A.len := by
  rw [Heap.toNat_next (hL.heapPtr ▸ hmem)]
  obtain ho | rfl := ho
  · have hnext := hL.tiles.next_mem ho
    rwa [Nat.zero_add, hL.total] at hnext
  · exact .inr hL.stop.2

/-- The test of the loop, on a block. -/
theorem fits_iff (hL : Laid A h (l ++ g :: r)) (hptr : ptr.toNat = Tiling.total l) :
    h.fits ptr size = true ↔ g.used = false ∧ size.toNat + 16 ≤ g.size := by
  have hg : 16 ≤ g.size := hL.le_size g (by simp)
  have hused := (hL.fields_at (hL.toNat_entry_at hptr)).2.2
  rw [Heap.fits, Bool.and_eq_true, decide_eq_true_iff, decide_eq_true_iff, hused, ge_iff_le,
    UInt32.le_iff_toNat_le, hL.toNat_room hptr]
  exact and_congr_right fun _ => by omega

/-- Where the test holds, there is a free block with room. -/
theorem block_of_fits (hL : Laid A h gs) (hptr : ptr.toNat ∈ seams 0 gs)
    (hfits : h.fits ptr size = true) :
    ∃ l g r, gs = l ++ g :: r ∧ ptr.toNat = Tiling.total l ∧
      g.used = false ∧ size.toNat + 16 ≤ g.size := by
  obtain ⟨l, g, r, rfl, hat⟩ := mem_seams_iff.mp hptr
  rw [Nat.zero_add] at hat
  exact ⟨l, g, r, rfl, hat, (hL.fits_iff hat).mp hfits⟩

/-- The test in front of the cut: behind what is asked for there is room for a header and the least
data. -/
theorem splits_iff (hL : Laid A h (l ++ g :: r)) (hptr : ptr.toNat = Tiling.total l)
    (hfit : size.toNat + 16 ≤ g.size) : h.next (h.entry ptr) - (ptr + sizeofStructMem) ≥
      size + sizeofStructMem + minSizeAligned ↔ size.toNat + 48 ≤ g.size := by
  have hram := A.inRam
  have hend := hL.end_eq
  have hsize : (size + sizeofStructMem).toNat = size.toNat + 16 := by
    rw [toNat_add_of_lt] <;> rw [toNat_sizeofStructMem]
    omega
  have hsplit : (size + sizeofStructMem + minSizeAligned).toNat = size.toNat + 32 := by
    rw [toNat_add_of_lt] <;> rw [hsize, toNat_minSizeAligned]
    omega
  rw [ge_iff_le, UInt32.le_iff_toNat_le, hL.toNat_room hptr, hsplit]
  omega

/-- And at the end. -/
theorem fits_end (hL : Laid A h gs) (hptr : ptr.toNat = A.len) : h.fits ptr size = false := by
  have hmem : (h.entry ptr).toNat = h.heapPtr.toNat + A.len := by
    rw [hL.toNat_entry hptr.le, hptr, hL.heapPtr]
  have hne : h.used (h.entry ptr) ≠ 0 := by
    rw [ne_eq, Heap.used_eq_zero_iff hmem, hL.stop.1]
    decide
  simp [Heap.fits, hne]

/-- What the search finds is a free block with room. -/
theorem search (hL : Laid A h gs) : ∀ {fuel : ℕ} {ptr : UInt32},
    ptr.toNat ∈ seams 0 gs ∨ ptr.toNat = A.len → ∀ {found : UInt32},
    h.search size fuel ptr = some (some found) →
      found.toNat ∈ seams 0 gs ∧ h.fits found size = true := by
  intro fuel
  induction fuel with
  | zero => exact fun _ _ hs => by cases hs
  | succ fuel ih =>
    intro ptr hptr found hs
    rw [Heap.search] at hs
    split at hs
    · split at hs
      · rename_i hfits
        obtain rfl := Option.some.inj (Option.some.inj hs)
        refine ⟨hptr.resolve_right fun hend => ?_, hfits⟩
        rw [hL.fits_end hend] at hfits
        cases hfits
      · exact ih (hL.next_place hptr (hL.toNat_entry (hL.place_le hptr))) hs
    · cases Option.some.inj hs

/-- `lfree` is left at a block, or at the end. -/
theorem skipUsed (hL : Laid A h gs) : ∀ {fuel o : ℕ} {mem : UInt32},
    o ∈ seams 0 gs ∨ o = A.len → mem.toNat = A.base + o → ∀ {lfree : UInt32},
    h.skipUsed fuel mem = some lfree → Laid A { h with lfree := lfree } gs := by
  intro fuel
  induction fuel with
  | zero => exact fun _ _ _ hs => by cases hs
  | succ fuel ih =>
    intro o mem ho hmem lfree hs
    rw [Heap.skipUsed] at hs
    split at hs
    · have hnext := hL.next_place ho hmem
      exact ih hnext (hL.toNat_entry (hL.place_le hnext)) hs
    · obtain rfl := Option.some.inj hs
      exact hL.setLfree hmem ho

/-- A place cuts the blocks in two. -/
theorem exists_cut (hL : Laid A h gs) {o : ℕ} (ho : o ∈ seams 0 gs ∨ o = A.len) :
    ∃ l r, gs = l ++ r ∧ o = Tiling.total l := by
  obtain ho | rfl := ho
  · obtain ⟨l, g, r, rfl, rfl⟩ := mem_seams_iff.mp ho
    exact ⟨l, g :: r, rfl, Nat.zero_add _⟩
  · exact ⟨gs, [], (List.append_nil gs).symm, hL.total.symm⟩

/-- There are fewer blocks than bytes. -/
theorem length_lt (hL : Laid A h (l ++ r)) {fuel : ℕ} (hfuel : A.len < fuel) : r.length < fuel := by
  have hle := mul_length_le_total hL.le_size
  rw [hL.total, List.length_append] at hle
  omega

/-- The search comes to an end once it has fuel for the blocks. -/
theorem search_isSome : ∀ {fuel : ℕ} {l r : List Block} {ptr : UInt32}, Laid A h (l ++ r) →
    size.toNat ≤ h.memSizeAligned.toNat → ptr.toNat = Tiling.total l → r.length < fuel →
    (h.search size fuel ptr).isSome = true := by
  intro fuel
  induction fuel with
  | zero => exact fun _ _ _ hlt => absurd hlt (Nat.not_lt_zero _)
  | succ fuel ih =>
    intro l r ptr hL hsize hptr hlt
    rw [Heap.search]
    cases r with
    | nil =>
      have hend := hL.total
      have hlen := hL.size
      rw [List.append_nil] at hend
      rw [if_neg]
      · rfl
      · rw [UInt32.lt_iff_toNat_lt, toNat_sub_of_le hsize]
        omega
    | cons g r =>
      have hnext := (hL.fields_at (hL.toNat_entry_at hptr)).1
      split
      · split
        · rfl
        · rw [List.append_cons] at hL
          rw [List.length_cons] at hlt
          refine ih hL hsize ?_ (by omega)
          rw [hnext]
          simp
      · rfl

/-- And so does the loop that moves `lfree`. -/
theorem skipUsed_isSome : ∀ {fuel : ℕ} {l r : List Block} {mem : UInt32}, Laid A h (l ++ r) →
    mem.toNat = A.base + Tiling.total l → r.length < fuel →
    (h.skipUsed fuel mem).isSome = true := by
  intro fuel
  induction fuel with
  | zero => exact fun _ _ hlt => absurd hlt (Nat.not_lt_zero _)
  | succ fuel ih =>
    intro l r mem hL hmem hlt
    rw [Heap.skipUsed]
    cases r with
    | nil =>
      have hend := hL.total
      rw [List.append_nil] at hend
      rw [if_neg fun hc => hc.2 (UInt32.toNat_inj.mp (by rw [hmem, hL.heapEnd, hend]))]
      rfl
    | cons g r =>
      have hend := hL.end_eq
      have hnext := (hL.fields_at hmem).1
      split
      · rw [List.append_cons] at hL
        rw [List.length_cons] at hlt
        refine ih hL ?_ (by omega)
        rw [hL.toNat_entry (by omega), hnext]
        simp
      · rfl

end Laid

/-! ### rt_malloc -/

namespace Tidy

/-- `used_mem` grows by what is taken into use, and `max_mem` follows. -/
theorem count_stats {n : UInt32} (hused : h.usedMem.toNat + n.toNat < 2 ^ 32) :
    (h.count n).usedMem.toNat = h.usedMem.toNat + n.toNat ∧
      (h.count n).usedMem ≤ (h.count n).maxMem := by
  refine ⟨toNat_add_of_lt hused, ?_⟩
  change h.usedMem + n ≤ if h.maxMem < h.usedMem + n then h.usedMem + n else h.maxMem
  split
  · exact UInt32.le_refl _
  · rename_i hlt
    exact UInt32.not_lt.mp hlt

/-- A block `b` taken into use in place of a free one. -/
theorem taken {h₁ : Heap} {b : Block} {r' : List Block} {n : UInt32}
    (hS : Tidy A h (l ++ g :: r)) (hg : g.used = false) (hL : Laid A h₁ (l ++ b :: r'))
    (hmem : mem.toNat = A.base + total l) (hb : b.used = true) (hroom : 16 < b.size)
    (hn : n.toNat = b.size) (hused : h₁.usedMem = h.usedMem) (hsep : Separate r')
    (hseams : usedSeams (total l + b.size) r' = usedSeams (total l + g.size) r)
    (htotal : usedTotal r' = usedTotal r) :
    Tidy A ((h₁.count n).setMagic mem heapMagic) (l ++ b :: r') := by
  have hend := hL.end_eq
  have hram := A.inRam
  have hmost := usedTotal_le_total (l ++ b :: r')
  have hsum := hS.usedMem
  rw [hL.total] at hmost
  simp only [usedTotal_append, usedTotal_cons, hb, hg, htotal, if_true, Bool.false_eq_true, if_false,
    Nat.zero_add] at hmost hsum
  have hstats := count_stats (h := h₁) (n := n) (by rw [hused, hsum, hn]; omega)
  refine ⟨(hL.setStats _ _).setMagic hmem, ?_, fun o ho => ?_, ?_, hstats.2⟩
  · exact separate_append_cons.mpr ⟨hS.separate.left.concat_used hb, hsep.cons_used hb⟩
  · simp only [usedSeams_append, usedSeams_cons, hb, if_true, Nat.zero_add, hseams,
      List.mem_append, List.mem_singleton] at ho
    have hold := hS.inside o
    simp only [usedSeams_append, usedSeams_cons, hg, Bool.false_eq_true, if_false, Nat.zero_add,
      List.nil_append, List.mem_append] at hold
    obtain ho | rfl | ho := ho
    · exact hold (.inl ho)
    · omega
    · exact hold (.inr ho)
  · refine hstats.1.trans ?_
    simp only [usedTotal_append, usedTotal_cons, hb, htotal, if_true, hused, hsum, hn]
    omega

/-- A free block found by the search is taken into use, whole or its first part. -/
theorem take (hS : Tidy A h (l ++ g :: r)) (hg : g.used = false) (hptr : ptr.toNat = total l)
    (h16 : 16 ≤ size.toNat) (h8 : 8 ∣ size.toNat) (hfit : size.toNat + 16 ≤ g.size) :
    ∃ b r', Tidy A (h.take ptr size) (l ++ b :: r') ∧ b.used = true ∧ size.toNat + 16 ≤ b.size ∧
      usedSeams (total l + b.size) r' = usedSeams (total l + g.size) r ∧
      usedTotal r' = usedTotal r := by
  have hram := A.inRam
  have hend := hS.end_eq
  have hmem := hS.toNat_entry_at hptr
  have hdata := hS.toNat_data hptr
  have hsize : (size + sizeofStructMem).toNat = size.toNat + 16 := by
    rw [toNat_add_of_lt] <;> rw [toNat_sizeofStructMem]
    omega
  have hcond := hS.toLaid.splits_iff hptr hfit
  by_cases hcut : size.toNat + 48 ≤ g.size
  · obtain ⟨m, hm⟩ := Nat.exists_eq_add_of_le hfit
    obtain ⟨_, u⟩ := g
    obtain rfl : u = false := hg
    obtain rfl := hm
    have hptr2 : (ptr + sizeofStructMem + size).toNat = total l + (size.toNat + 16) := by
      rw [toNat_add_of_lt] <;> rw [hdata] <;> simp only at hend <;> omega
    have hL₁ := hS.toLaid.cut_used (by omega) (by simp only at hcut; omega) (by omega) hptr hptr2
    have heq : h.take ptr size = ((((h.insert ptr (ptr + sizeofStructMem + size)).setUsed
        (h.entry ptr) 1).linkBack (ptr + sizeofStructMem + size)).count
        (size + sizeofStructMem)).setMagic (h.entry ptr) heapMagic := by
      simp only [Heap.take, if_pos (hcond.mpr hcut)]
    refine ⟨⟨size.toNat + 16, true⟩, ⟨m, false⟩ :: r, ?_, rfl, le_rfl, ?_, by simp⟩
    · rw [heq]
      exact hS.taken rfl hL₁ hmem rfl (by simp only; omega) hsize (Heap.stats_linkBack ..).1
        (hS.separate.right.congr rfl) (by simp [Nat.add_assoc]) (by simp)
    · simp [Nat.add_assoc]
  · have hL₁ := hS.toLaid.setUsed (u := 1) hmem
    have hn : ((h.setUsed (h.entry ptr) 1).next (h.entry ptr) -
        (h.entry ptr - (h.setUsed (h.entry ptr) 1).heapPtr)).toNat = g.size :=
      hL₁.toNat_extent hmem
    have heq : h.take ptr size = ((h.setUsed (h.entry ptr) 1).count
        ((h.setUsed (h.entry ptr) 1).next (h.entry ptr) -
          (h.entry ptr - (h.setUsed (h.entry ptr) 1).heapPtr))).setMagic (h.entry ptr) heapMagic := by
      simp only [Heap.take, if_neg (hcond.not.mpr hcut)]
    refine ⟨{ g with used := true }, r, ?_, rfl, hfit, rfl, rfl⟩
    rw [heq]
    exact hS.taken hg hL₁ hmem rfl (by simp only; omega) hn rfl hS.separate.right.tail rfl rfl

end Tidy

/-- A block with room for `n` bytes has been taken into use, and `p` is to its data. -/
def Granted (A : Arena) (gs : List Block) (h' : Heap) (p : UInt32) (n : ℕ) : Prop :=
  ¬ Holds A gs p ∧ ∃ l g r, Tidy A h' (l ++ g :: r) ∧ n + 16 ≤ g.size ∧
    p.toNat = A.base + total l + 16 ∧ ∀ q, Holds A (l ++ g :: r) q ↔ q = p ∨ Holds A gs q

/-- A call has returned `q`: NULL and nothing has happened, or a pointer to the data of a
block in use, in place of `p`. -/
def Returned (A : Arena) (gs : List Block) (h : Heap) (p q : UInt32) (h' : Heap) : Prop :=
  q = 0 ∧ h' = h ∨ q ≠ 0 ∧ ∃ gs', Tidy A h' gs' ∧ ∀ x, Holds A gs' x ↔ x = q ∨ x ≠ p ∧ Holds A gs x

theorem Granted.ne_zero {n : ℕ} (hp : Granted A gs h' p n) : p ≠ 0 := by
  rintro rfl
  obtain ⟨-, l, g, r, -, -, hp, -⟩ := hp
  have hzero : (0 : UInt32).toNat = 0 := rfl
  omega

/-- A pointer in place of NULL is a pointer more. -/
theorem returned_of_insert {q : UInt32} (hq : q ≠ 0) (hT : Tidy A h' gs')
    (hholds : ∀ x, Holds A gs' x ↔ x = q ∨ Holds A gs x) : Returned A gs h 0 q h' := by
  refine .inr ⟨hq, gs', hT, fun x => (hholds x).trans (or_congr_right ?_)⟩
  exact (and_iff_right_of_imp Holds.ne_zero).symm

theorem Granted.returned {n : ℕ} (hp : Granted A gs h' p n) : Returned A gs h 0 p h' := by
  have hne := hp.ne_zero
  obtain ⟨-, l, g, r, hT, -, -, hholds⟩ := hp
  exact returned_of_insert hne hT hholds

/-- Where `rt_realloc` cuts a block, and the heap with the magic word written there. -/
theorem Laid.before_cut {newsize : UInt32} {m : ℕ} (n : UInt32)
    (hL : Laid A h (l ++ ⟨newsize.toNat + 16 + m, true⟩ :: r)) (hm : 28 < m)
    (hptr : ptr.toNat = Tiling.total l) :
    (ptr + sizeofStructMem + newsize).toNat = Tiling.total l + (newsize.toNat + 16) ∧
      (h.entry (ptr + sizeofStructMem + newsize)).toNat =
        A.base + (Tiling.total l + (newsize.toNat + 16)) ∧
      Laid A (({ h with usedMem := h.usedMem - n } : Heap).setMagic
        (h.entry (ptr + sizeofStructMem + newsize)) heapMagic)
        (l ++ ⟨newsize.toNat + 16 + m, true⟩ :: r) := by
  have hram := A.inRam
  have hend := hL.end_eq
  have hdata := hL.toNat_data hptr
  simp only at hend
  have hptr2 : (ptr + sizeofStructMem + newsize).toNat = Tiling.total l + (newsize.toNat + 16) := by
    rw [toNat_add_of_lt] <;> rw [hdata] <;> omega
  have hmem2 : (h.entry (ptr + sizeofStructMem + newsize)).toNat =
      A.base + (Tiling.total l + (newsize.toNat + 16)) := by
    rw [hL.toNat_entry (by omega), hptr2]
  refine ⟨hptr2, hmem2, (hL.setStats (h.usedMem - n) h.maxMem).setRam fun a ha => ?_⟩
  exact storeHalf_of_out (by simp only at ha; omega)

namespace Tidy

/-- What the size of a request is rounded up to. -/
theorem granule_toNat (size : UInt32) :
    (Heap.granule size).toNat = max 16 (rtAlign size).toNat := by
  rw [Heap.granule]
  by_cases hlt : rtAlign size < minSizeAligned
  · rw [if_pos hlt, toNat_minSizeAligned]
    rw [UInt32.lt_iff_toNat_lt, toNat_minSizeAligned] at hlt
    exact (max_eq_left hlt.le).symm
  · rw [if_neg hlt]
    rw [UInt32.lt_iff_toNat_lt, toNat_minSizeAligned] at hlt
    exact (max_eq_right (Nat.le_of_not_lt hlt)).symm

theorem toNat_granule (size : UInt32) :
    16 ≤ (Heap.granule size).toNat ∧ 8 ∣ (Heap.granule size).toNat ∧
      (rtAlign size).toNat ≤ (Heap.granule size).toNat := by
  have hsize := toNat_rtAlign size
  have hmax := granule_toNat size
  omega

/-- What is found from `lfree` on is a free block with room. -/
theorem of_search (hS : Tidy A h gs) {fuel : ℕ} {found : UInt32}
    (hsearch : h.search size fuel (h.lfree - h.heapPtr) = some (some found)) :
    found.toNat ∈ seams 0 gs ∧ h.fits found size = true := by
  obtain ⟨o, hlf, ho⟩ := hS.lfree
  exact hS.toLaid.search (by rwa [hS.toNat_sub_heapPtr hlf]) hsearch

/-- The block the search has found is taken into use, and `lfree` goes on if it was there. -/
theorem grant (hS : Tidy A h gs) {fuel : ℕ} {found : UInt32}
    (h16 : 16 ≤ size.toNat) (h8 : 8 ∣ size.toNat) (hfound : found.toNat ∈ seams 0 gs)
    (hfits : h.fits found size = true)
    (heq : h.grant fuel found size = some (p, h')) :
    Granted A gs h' p size.toNat := by
  obtain ⟨l, g, r, rfl, hptr, hg, hfit⟩ := hS.toLaid.block_of_fits hfound hfits
  have hram := A.inRam
  have hend := hS.end_eq
  have hmem := hS.toNat_entry_at hptr
  have hdata : (h.entry found + sizeofStructMem).toNat = A.base + total l + 16 := by
    rw [toNat_add_of_lt] <;> rw [hmem, toNat_sizeofStructMem]
    omega
  obtain ⟨b, r', hT, hb, hroom, hseams, -⟩ := hS.take hg hptr h16 h8 hfit
  have hholds : ∀ q, Holds A (l ++ b :: r') q ↔
      q = h.entry found + sizeofStructMem ∨ Holds A (l ++ g :: r) q := holds_insert hdata fun x => by
    simp only [usedSeams_append, usedSeams_cons, hb, hg, hseams, Nat.zero_add, List.mem_append,
      if_true, Bool.false_eq_true, if_false, List.mem_singleton, List.not_mem_nil, false_or]
    exact or_left_comm
  have hfresh : ¬ Holds A (l ++ g :: r) (h.entry found + sizeofStructMem) := by
    rintro ⟨o, ho, hp⟩
    obtain rfl : o = total l := by omega
    rw [hS.mem_usedSeams_iff, hg] at ho
    cases ho
  obtain ⟨rfl, rfl | ⟨-, lfree, hskip, rfl⟩⟩ := Heap.grant_cases heq
  · exact ⟨hfresh, l, b, r', hT, hroom, hdata, hholds⟩
  · have hL := hT.toLaid.skipUsed (.inl (by simp)) hmem hskip
    exact ⟨hfresh, l, b, r', ⟨hL, hT.separate, hT.inside, hT.usedMem, hT.maxMem⟩, hroom, hdata,
      hholds⟩

/-- **`rt_malloc`.** -/
theorem malloc (hS : Tidy A h gs) {fuel : ℕ} (heq : h.malloc fuel size = some (p, h')) :
    p = 0 ∧ h' = h ∨ Granted A gs h' p (rtAlign size).toNat := by
  obtain hnull | ⟨found, hsearch, heq⟩ := Heap.malloc_eq_some heq
  · exact .inl hnull
  · obtain ⟨h16, h8, hle⟩ := toNat_granule size
    obtain ⟨hfound, hfits⟩ := hS.of_search hsearch
    obtain ⟨hfresh, l, g, r, hT, hroom, hp, hholds⟩ := hS.grant h16 h8 hfound hfits heq
    exact .inr ⟨hfresh, l, g, r, hT, by omega, hp, hholds⟩

/-- A pointer that is not NULL is to a block that has been taken into use. -/
theorem granted (hS : Tidy A h gs) {fuel : ℕ} (heq : h.malloc fuel size = some (p, h'))
    (hp : p ≠ 0) : Granted A gs h' p (rtAlign size).toNat :=
  (hS.malloc heq).resolve_left fun hnull => hp hnull.1

/-- With NULL returned, nothing has happened. -/
theorem unchanged_of_malloc (hS : Tidy A h gs) {fuel : ℕ}
    (heq : h.malloc fuel size = some (p, h')) (hp : p = 0) : h' = h := by
  rcases hS.malloc heq with ⟨-, hsame⟩ | hgr
  · exact hsame
  · exact absurd hp hgr.ne_zero

/-- A block handed out is counted in `used_mem`. -/
theorem usedMem_lt_of_malloc (hS : Tidy A h gs) {fuel : ℕ} (heq : h.malloc fuel size = some (p, h'))
    (hp : p ≠ 0) : h.usedMem < h'.usedMem := by
  obtain ⟨found, hsearch, hgrant⟩ := (Heap.malloc_eq_some heq).resolve_left fun hc => hp hc.1
  obtain ⟨h16, h8, -⟩ := toNat_granule size
  obtain ⟨hfound, hfits⟩ := hS.of_search hsearch
  obtain ⟨l, g, r, rfl, hptr, hg, hfit⟩ := hS.toLaid.block_of_fits hfound hfits
  obtain ⟨b, r', hT, hb, hroom, -, htotal⟩ := hS.take hg hptr h16 h8 hfit
  have hused : h'.usedMem = (h.take found (Heap.granule size)).usedMem := by
    obtain ⟨-, rfl | ⟨-, lfree, -, rfl⟩⟩ := Heap.grant_cases hgrant
    · rfl
    · rfl
  rw [UInt32.lt_iff_toNat_lt, hused, hT.usedMem, hS.usedMem]
  simp only [usedTotal_append, usedTotal_cons, hb, hg, htotal, if_true, Bool.false_eq_true, if_false]
  omega

/-- The loop that moves `lfree` comes to an end. -/
theorem grant_isSome (hS : Tidy A h gs) {fuel : ℕ} (hfuel : A.len < fuel) {found : UInt32}
    (h16 : 16 ≤ size.toNat) (h8 : 8 ∣ size.toNat) (hfound : found.toNat ∈ seams 0 gs)
    (hfits : h.fits found size = true) : (h.grant fuel found size).isSome = true := by
  obtain ⟨l, g, r, rfl, hptr, hg, hfit⟩ := hS.toLaid.block_of_fits hfound hfits
  obtain ⟨b, r', hT, -⟩ := hS.take hg hptr h16 h8 hfit
  unfold Heap.grant
  simp only
  split
  · rename_i hat
    rw [Option.isSome_map]
    exact hT.toLaid.skipUsed_isSome (hat ▸ hS.toNat_entry_at hptr) (hT.toLaid.length_lt hfuel)
  · rfl

/-- `rt_malloc` returns. -/
theorem malloc_isSome (hS : Tidy A h gs) (hlen : 32 ≤ A.len) {fuel : ℕ} (hfuel : A.len < fuel) :
    (h.malloc fuel size).isSome = true := by
  unfold Heap.malloc
  split
  · rfl
  split
  · rfl
  rename_i hle
  obtain ⟨h16, h8, -⟩ := toNat_granule size
  have hfit : (Heap.granule size).toNat ≤ h.memSizeAligned.toNat := by
    rw [gt_iff_lt, UInt32.lt_iff_toNat_lt, Nat.not_lt] at hle
    have hsize := hS.size
    rw [granule_toNat]
    omega
  obtain ⟨o, hlf, ho⟩ := hS.lfree
  have hplace := hS.toNat_sub_heapPtr hlf
  obtain ⟨l, r, rfl, rfl⟩ := hS.toLaid.exists_cut ho
  have hsome := Laid.search_isSome hS.toLaid hfit hplace (hS.toLaid.length_lt hfuel)
  obtain ⟨found, hsearch⟩ := Option.isSome_iff_exists.mp hsome
  rw [hsearch]
  cases found with
  | none => rfl
  | some found =>
    obtain ⟨hfound, hfits⟩ := hS.of_search hsearch
    exact hS.grant_isSome hfuel h16 h8 hfound hfits

/-! ### rt_realloc -/

/-- The end of a block in use is cut off and becomes free. -/
theorem shrink (hS : Tidy A h (l ++ g :: r)) (hg : g.used = true) (hptr : ptr.toNat = total l)
    {newsize : UInt32} (hsize : size.toNat + 16 = g.size) (h8 : 8 ∣ newsize.toNat)
    (hlt : newsize.toNat + 28 < size.toNat) :
    ∃ gs, Tidy A (h.shrink ptr size newsize) gs ∧ usedSeams 0 gs = usedSeams 0 (l ++ g :: r) ∧
      (∀ x ∈ seams 0 gs, x ∈ seams 0 (l ++ g :: r) ∨ x = total l + (newsize.toNat + 16)) ∧
      (h.shrink ptr size newsize).lfree.toNat ≤ h.lfree.toNat ∧
      ∀ b ∈ r.head?, b.used = false → h.lfree.toNat = A.base + (total l + g.size) →
        (h.shrink ptr size newsize).lfree.toNat ≤ A.base + (total l + (newsize.toNat + 16)) := by
  have hram := A.inRam
  have hend := hS.end_eq
  have hg8 := (hS.sizes g (by simp)).2
  obtain ⟨m, hm⟩ := Nat.exists_eq_add_of_le (show newsize.toNat + 16 ≤ g.size by omega)
  obtain ⟨_, u⟩ := g
  obtain rfl : u = true := hg
  obtain rfl := hm
  simp only at hend hsize hg8
  obtain ⟨hptr2, hmem2, hL₂⟩ := hS.toLaid.before_cut (size - newsize) (by omega) hptr
  have hn : (size - newsize).toNat = m := by
    rw [toNat_sub_of_le] <;> omega
  have hL₃ := hL₂.cut (by omega) (by omega) (by omega) hptr hptr2
  rw [List.append_cons] at hL₃
  have hleft : Separate (l ++ [⟨newsize.toNat + 16, true⟩]) :=
    (separate_append_cons.mp hS.separate).1.congr (by simp)
  have hmem2' : (h.entry (ptr + sizeofStructMem + newsize)).toNat =
      A.base + total (l ++ [⟨newsize.toNat + 16, true⟩]) := by
    rw [hmem2]
    simp
  obtain ⟨gs, hgs, hsep, hseams, htotal, hsubset⟩ :=
    hL₃.plugHoles hmem2' rfl hleft hS.separate.right.tail
  replace hseams : usedSeams 0 gs = usedSeams 0 (l ++ ⟨newsize.toNat + 16 + m, true⟩ :: r) := by
    rw [hseams]
    simp [Nat.add_assoc]
  have hstats := h.stats_shrink ptr size newsize
  have hused := hS.usedMem
  simp only [usedTotal_append, usedTotal_cons, if_true] at hused
  have hsub := toNat_sub_of_le (a := h.usedMem) (b := size - newsize) (by rw [hn, hused]; omega)
  replace hsubset : ∀ x ∈ seams 0 gs, x ∈ seams 0 (l ++ ⟨newsize.toNat + 16 + m, true⟩ :: r) ∨
      x = total l + (newsize.toNat + 16) := fun x hx => by
    have hmem := hsubset hx
    rw [← List.append_cons] at hmem
    have hpair := (mem_seams_pair _ _ true).mp hmem
    rwa [Nat.zero_add] at hpair
  obtain ⟨hlfree, hfrom⟩ := hL₃.lfree_plugHoles hmem2' rfl hS.separate.right.tail
  rw [(sameArena_linkBack ..).lfree] at hlfree hfrom
  replace hfrom : ∀ b ∈ r.head?, b.used = false →
      h.lfree.toNat = A.base + (total l + (newsize.toNat + 16 + m)) →
      (h.shrink ptr size newsize).lfree.toNat ≤ A.base + (total l + (newsize.toNat + 16)) := by
    intro b hb hbu hlf
    rw [← hmem2]
    refine hfrom b hb hbu (Eq.trans hlf ?_)
    simp [Nat.add_assoc]
  refine ⟨gs, ⟨hgs, hsep, fun o ho => hS.inside o (hseams ▸ ho), ?_, ?_⟩, hseams, hsubset, hlfree,
    hfrom⟩
  · refine (congrArg UInt32.toNat hstats.1).trans (hsub.trans ?_)
    rw [hn, hused, htotal]
    simp
    omega
  · have hmax := UInt32.le_iff_toNat_le.mp hS.maxMem
    rw [UInt32.le_iff_toNat_le]
    refine le_trans (le_of_eq ((congrArg UInt32.toNat hstats.1).trans hsub)) ?_
    refine le_trans ?_ (le_of_eq (congrArg UInt32.toNat hstats.2).symm)
    exact le_trans (Nat.sub_le ..) hmax

/-- Bytes copied into the data of a block. -/
theorem copy (hS : Tidy A h (l ++ g :: r)) {n : UInt32} {q : UInt32}
    (hq : q.toNat = A.base + total l + 16) (hn : n.toNat + 16 ≤ g.size) :
    Tidy A (h.copy q p n) (l ++ g :: r) :=
  hS.setRam fun a ha => if_neg (by omega)

/-- Zeros written into the data of a block. -/
theorem zero (hS : Tidy A h (l ++ g :: r)) {n : UInt32}
    (hp : p.toNat = A.base + total l + 16) (hn : n.toNat + 16 ≤ g.size) :
    Tidy A (h.zero p n) (l ++ g :: r) :=
  hS.setRam fun a ha => if_neg (by omega)

/-- A block that takes the place of another: as much of the contents as it has room for is copied,
and the old block is freed. -/
theorem moved {h₀ : Heap} {q k : UInt32} {n : ℕ} (hheld : Holds A gs p) (hgr : Granted A gs h q n)
    (hk : k.toNat ≤ n) : Returned A gs h₀ p q ((h.copy q p k).free p) := by
  have hne := hgr.ne_zero
  obtain ⟨hfresh, l, g, r, hT, hroom, hq, hholds⟩ := hgr
  have hcopy := hT.copy (p := p) (n := k) hq (by omega)
  obtain ⟨gs', hF, hfree⟩ := hcopy.free ((hholds p).mpr (.inr hheld))
  refine .inr ⟨hne, gs', hF, fun x => ?_⟩
  rw [hfree, hholds]
  constructor
  · rintro ⟨hxp, hx | hx⟩
    · exact .inl hx
    · exact .inr ⟨hxp, hx⟩
  · rintro (rfl | ⟨hxp, hx⟩)
    · exact ⟨fun hxp => hfresh (hxp ▸ hheld), .inl rfl⟩
    · exact ⟨hxp, .inr hx⟩

/-- What a block that is cut must have behind its new size: a header and the least data. -/
theorem toNat_add_header_minSize {n : UInt32} (hn : n.toNat + 28 < 2 ^ 32) :
    (n + sizeofStructMem + minSize).toNat = n.toNat + 28 := by
  have hheader : (n + sizeofStructMem).toNat = n.toNat + 16 := by
    rw [toNat_add_of_lt] <;> rw [toNat_sizeofStructMem]
    omega
  rw [toNat_add_of_lt] <;> rw [hheader, toNat_minSize]
  omega

/-- What `rt_realloc` of a block in use can do, and when: refuse the size; leave a block that has
just that size; cut the end of it off; or ask `rt_malloc` for another block, move the contents
there and free the old one. -/
theorem realloc_held (hS : Tidy A h (l ++ g :: r)) (hg : g.used = true)
    (hpt : p.toNat = A.base + total l + 16) {fuel : ℕ} {q newsize : UInt32}
    (heq : h.realloc fuel p newsize = some (q, h')) :
    ∃ ptr size : UInt32, ptr.toNat = total l ∧ size.toNat + 16 = g.size ∧
      (h.memSizeAligned < rtAlign newsize ∧ q = 0 ∧ h' = h ∨
        size = rtAlign newsize ∧ q = p ∧ h' = h ∨
        (rtAlign newsize).toNat + 28 < size.toNat ∧ h.Cuts p newsize ∧ q = p ∧
          h' = h.shrink ptr size (rtAlign newsize) ∨
        size ≠ rtAlign newsize ∧ size.toNat ≤ (rtAlign newsize).toNat + 28 ∧
          ∃ h₁, h.malloc fuel (rtAlign newsize) = some (q, h₁) ∧
            (q = 0 ∧ h' = h₁ ∨ q ≠ 0 ∧ ∃ k : UInt32, k.toNat = min size.toNat (rtAlign newsize).toNat ∧
              h' = (h₁.copy q p k).free p)) := by
  have hram := A.inRam
  have hgs : 16 ≤ g.size := hS.le_size g (by simp)
  have hheld : Holds A (l ++ g :: r) p :=
    ⟨total l, hS.toLaid.mem_usedSeams_iff.mpr hg, hpt⟩
  have hmem := toNat_sub_header hpt
  have hptr := hS.toNat_sub_heapPtr hmem
  have hroom := hS.toNat_extent hmem
  have hlen : (h.next (p - sizeofStructMem) - (p - sizeofStructMem - h.heapPtr) -
      sizeofStructMem).toNat + 16 = g.size := by
    rw [toNat_sub_of_le] <;> rw [hroom, toNat_sizeofStructMem] <;> omega
  have hCuts : h.Cuts p newsize ↔ p ≠ 0 ∧ rtAlign newsize ≤ h.memSizeAligned ∧
      rtAlign newsize + sizeofStructMem + minSize < h.next (p - sizeofStructMem) -
        (p - sizeofStructMem - h.heapPtr) - sizeofStructMem := Iff.rfl
  refine ⟨_, _, hptr, hlen, ?_⟩
  unfold Heap.realloc at heq
  simp only at heq
  generalize rtAlign newsize = n at heq hCuts ⊢
  split at heq
  · rename_i hfit
    obtain ⟨rfl, rfl⟩ := Prod.mk.injEq .. ▸ Option.some.inj heq
    exact .inl ⟨hfit, rfl, rfl⟩
  rename_i hfit
  have hle := UInt32.not_lt.mp hfit
  rw [gt_iff_lt, UInt32.lt_iff_toNat_lt] at hfit
  have hsize := hS.size
  rw [if_neg hheld.ne_zero, if_neg (hS.in_arena hheld)] at heq
  generalize h.next (p - sizeofStructMem) - (p - sizeofStructMem - h.heapPtr) -
    sizeofStructMem = size at heq hlen hCuts ⊢
  split at heq
  · rename_i hsame
    obtain ⟨rfl, rfl⟩ := Prod.mk.injEq .. ▸ Option.some.inj heq
    exact .inr (.inl ⟨hsame, rfl, rfl⟩)
  rename_i hsame
  split at heq
  · -- the block is long enough to be cut
    rename_i hcut
    obtain ⟨rfl, rfl⟩ := Prod.mk.injEq .. ▸ Option.some.inj heq
    have hlt := hcut
    rw [UInt32.lt_iff_toNat_lt, toNat_add_header_minSize (by omega)] at hlt
    exact .inr (.inr (.inl ⟨hlt, hCuts.mpr ⟨hheld.ne_zero, hle, hcut⟩, rfl, rfl⟩))
  · -- a fresh block takes what fits of the contents, and the old one is freed
    rename_i hcut
    rw [UInt32.lt_iff_toNat_lt, toNat_add_header_minSize (by omega), Nat.not_lt] at hcut
    obtain ⟨⟨nmem, h₁⟩, hmalloc, hres⟩ := Option.map_eq_some_iff.mp heq
    simp only at hres
    refine .inr (.inr (.inr ⟨hsame, hcut, h₁, ?_⟩))
    split at hres
    · rename_i hne
      obtain ⟨rfl, rfl⟩ := Prod.mk.injEq .. ▸ hres
      refine ⟨hmalloc, .inr ⟨hne, _, ?_, rfl⟩⟩
      split
      · rename_i hlt
        rw [UInt32.lt_iff_toNat_lt] at hlt
        omega
      · rename_i hlt
        rw [UInt32.lt_iff_toNat_lt] at hlt
        omega
    · rename_i hnull
      obtain ⟨rfl, rfl⟩ := Prod.mk.injEq .. ▸ hres
      exact ⟨hmalloc, .inl ⟨not_not.mp hnull, rfl⟩⟩

/-- What `rt_realloc` can do: fail, or leave everything as it is; get a block where there was
none; cut the end of the block off; or get another block, move the contents there and free
the old one. -/
theorem realloc_cases (hS : Tidy A h gs) {fuel : ℕ} {q newsize : UInt32} (hp : p = 0 ∨ Holds A gs p)
    (heq : h.realloc fuel p newsize = some (q, h')) :
    (q = 0 ∨ q = p ∧ p ≠ 0) ∧ h' = h ∨
      p = 0 ∧ h.malloc fuel (rtAlign newsize) = some (q, h') ∨
      (∃ (l : List Block) (g : Block) (r : List Block) (ptr size : UInt32), gs = l ++ g :: r ∧
        g.used = true ∧ p.toNat = A.base + total l + 16 ∧ ptr.toNat = total l ∧
        size.toNat + 16 = g.size ∧ (rtAlign newsize).toNat + 28 < size.toNat ∧
        h.Cuts p newsize ∧ q = p ∧ p ≠ 0 ∧ h' = h.shrink ptr size (rtAlign newsize)) ∨
      ∃ h₁ k, p ≠ 0 ∧ h.malloc fuel (rtAlign newsize) = some (q, h₁) ∧ q ≠ 0 ∧
        k.toNat ≤ (rtAlign (rtAlign newsize)).toNat ∧ h' = (h₁.copy q p k).free p := by
  rcases hp with rfl | hheld
  · rcases Heap.realloc_null heq with ⟨rfl, rfl⟩ | hmalloc
    · exact .inl ⟨.inl rfl, rfl⟩
    · exact .inr (.inl ⟨rfl, hmalloc⟩)
  · have hnz := hheld.ne_zero
    obtain ⟨l, g, r, rfl, hg, hpt⟩ := hheld.exists_block
    obtain ⟨ptr, size, hptr, hlen, ⟨-, rfl, rfl⟩ | ⟨-, rfl, rfl⟩ | ⟨hlt, hcuts, rfl, rfl⟩ |
      ⟨-, -, h₁, hmalloc, ⟨rfl, rfl⟩ | ⟨hne, k, hk, rfl⟩⟩⟩ := hS.realloc_held hg hpt heq
    · exact .inl ⟨.inl rfl, rfl⟩
    · exact .inl ⟨.inr ⟨rfl, hnz⟩, rfl⟩
    · exact .inr (.inr (.inl ⟨l, g, r, ptr, size, rfl, hg, hpt, hptr, hlen, hlt, hcuts, rfl, hnz, rfl⟩))
    · obtain rfl := hS.unchanged_of_malloc hmalloc rfl
      exact .inl ⟨.inl rfl, rfl⟩
    · refine .inr (.inr (.inr ⟨h₁, k, hnz, hmalloc, hne, ?_, rfl⟩))
      have halign := toNat_rtAlign newsize
      rw [toNat_rtAlign]
      omega

/-- **`rt_realloc`** of NULL or of a block in use. -/
theorem realloc (hS : Tidy A h gs) {fuel : ℕ} {q newsize : UInt32} (hp : p = 0 ∨ Holds A gs p)
    (heq : h.realloc fuel p newsize = some (q, h')) : Returned A gs h p q h' := by
  have hkept : p ≠ 0 → ∀ x, Holds A gs x ↔ x = p ∨ x ≠ p ∧ Holds A gs x := fun hnz x => by
    constructor
    · exact fun hx => or_iff_not_imp_left.mpr fun hne => ⟨hne, hx⟩
    · rintro (rfl | ⟨-, hx⟩)
      · exact hp.resolve_left hnz
      · exact hx
  have halign := toNat_rtAlign newsize
  rcases hS.realloc_cases hp heq with ⟨rfl | ⟨rfl, hnz⟩, rfl⟩ | ⟨rfl, hmalloc⟩ |
    ⟨l, g, r, ptr, size, rfl, hg, -, hptr, hlen, hcut, -, rfl, hnz, rfl⟩ |
    ⟨h₁, k, hnz, hmalloc, hne, hk, rfl⟩
  · exact .inl ⟨rfl, rfl⟩
  · exact .inr ⟨hnz, gs, hS, hkept hnz⟩
  · exact (hS.malloc hmalloc).elim .inl Granted.returned
  · obtain ⟨gs', hT, hseams, -⟩ := hS.shrink hg hptr hlen (by omega) hcut
    refine .inr ⟨hnz, gs', hT, fun x => ?_⟩
    rw [← hkept hnz x, Holds, Holds, hseams]
  · exact moved (hp.resolve_left hnz) (hS.granted hmalloc hne) hk

/-! ### rt_calloc -/

/-- **`rt_calloc`** where the zeros stay in the block. -/
theorem calloc (hS : Tidy A h gs) {fuel : ℕ} {count : UInt32}
    (hsafe : (count * size).toNat ≤ 0xFFFFFFF8)
    (heq : h.calloc fuel count size = some (p, h')) : Returned A gs h 0 p h' := by
  obtain ⟨⟨q, h₁⟩, hmalloc, hres⟩ := Option.map_eq_some_iff.mp heq
  obtain ⟨rfl, rfl⟩ | hgr := hS.malloc hmalloc
  · obtain ⟨rfl, rfl⟩ := Prod.mk.injEq .. ▸ hres
    exact .inl ⟨rfl, rfl⟩
  · have hne := hgr.ne_zero
    simp only [hne, ne_eq, not_false_eq_true, if_true] at hres
    obtain ⟨rfl, rfl⟩ := Prod.mk.injEq .. ▸ hres
    obtain ⟨-, l, g, r, hT, hroom, hq, hholds⟩ := hgr
    rw [toNat_rtAlign] at hroom
    exact returned_of_insert hne (hT.zero hq (by omega)) hholds

/-! ### Calls return -/

theorem realloc_isSome (hS : Tidy A h gs) (hlen : 32 ≤ A.len) {fuel : ℕ} (hfuel : A.len < fuel)
    {newsize : UInt32} : (h.realloc fuel p newsize).isSome = true := by
  unfold Heap.realloc
  simp only
  split
  · rfl
  split
  · exact hS.malloc_isSome hlen hfuel
  split
  · rfl
  split
  · rfl
  split
  · rfl
  · rw [Option.isSome_map]
    exact hS.malloc_isSome hlen hfuel

theorem calloc_isSome (hS : Tidy A h gs) (hlen : 32 ≤ A.len) {fuel : ℕ} (hfuel : A.len < fuel)
    {count : UInt32} : (h.calloc fuel count size).isSome = true := by
  unfold Heap.calloc
  rw [Option.isSome_map]
  exact hS.malloc_isSome hlen hfuel

end Tidy

end Start01
