/-
Start01/HeapTiles.lean

The blocks of the heap.  `Laid A h gs` says that the arena `A` is laid out in the blocks
`gs`: the headers from `heap_ptr` on tile it, the structure behind the last block is the
end, and `lfree` is at a block or at the end.  One lemma for each edit of the headers says
which blocks it leaves:

* `Laid.setUsed` — one block is marked;
* `Laid.split` — a block is cut in two, by `rt_malloc` and by `rt_realloc`;
* `Laid.combine` — two neighbours become one;
* `Laid.plugHoles` — a free block and its free neighbours become one.
-/
import Start01.Heap

namespace Start01

open Scatter Tiling

/-! ### Sizes -/

theorem toNat_add_of_lt {a b : UInt32} (h : a.toNat + b.toNat < 2 ^ 32) :
    (a + b).toNat = a.toNat + b.toNat := by
  rw [UInt32.toNat_add, Nat.mod_eq_of_lt h]

theorem toNat_sub_of_le {a b : UInt32} (h : b.toNat ≤ a.toNat) :
    (a - b).toNat = a.toNat - b.toNat :=
  UInt32.toNat_sub_of_le _ _ (UInt32.le_iff_toNat_le.mpr h)

/-- Clearing the three low bits. -/
theorem and_not_seven {n : ℕ} (hn : n < 2 ^ 32) : n &&& 4294967288 = n / 8 * 8 := by
  have hmask : (4294967288 : ℕ) = (2 ^ 29 - 1) <<< 3 := by decide
  have hshift : n / 8 * 8 = n >>> 3 <<< 3 := by
    rw [Nat.shiftRight_eq_div_pow, Nat.shiftLeft_eq]
  rw [hmask, hshift]
  apply Nat.eq_of_testBit_eq
  intro i
  simp only [Nat.testBit_and, Nat.testBit_shiftLeft, Nat.testBit_two_pow_sub_one,
    Nat.testBit_shiftRight]
  by_cases hi : 3 ≤ i
  · rw [Nat.add_sub_cancel' hi]
    by_cases hlt : i - 3 < 29
    · simp [hi, hlt]
    · have hbit : n.testBit i = false :=
        Nat.testBit_lt_two_pow (hn.trans_le (Nat.pow_le_pow_right (by omega) (by omega)))
      simp [hbit]
  · simp [hi]

theorem toNat_rtAlignDown (n : UInt32) : (rtAlignDown n).toNat = n.toNat / 8 * 8 := by
  have hmask : (~~~(rtAlignSize - 1)).toNat = 4294967288 := by decide
  rw [rtAlignDown, UInt32.toNat_and, hmask, and_not_seven n.toNat_lt]

theorem toNat_rtAlign (n : UInt32) : (rtAlign n).toNat = (n.toNat + 7) % 2 ^ 32 / 8 * 8 := by
  have h7 : (7 : UInt32).toNat = 7 := rfl
  have hsum : n + rtAlignSize - 1 = n + 7 := by
    rw [UInt32.sub_eq_iff_eq_add, UInt32.add_assoc]
    rfl
  rw [show rtAlign n = rtAlignDown (n + rtAlignSize - 1) from rfl, toNat_rtAlignDown, hsum,
    UInt32.toNat_add, h7]

@[simp] theorem toNat_minSizeAligned : minSizeAligned.toNat = 16 := by decide

@[simp] theorem toNat_minSize : minSize.toNat = 12 := rfl

@[simp] theorem toNat_sizeofStructMem : sizeofStructMem.toNat = 16 := by decide

/-! ### Headers -/

/-- The structure `heap_mem` at an address, without its magic. -/
def links (m : ℕ → UInt8) (a : ℕ) : Header :=
  ⟨(wordAt m (a + 4)).toNat, (wordAt m (a + 8)).toNat, halfAt m (a + 2) != 0⟩

theorem links_congr {m m' : ℕ → UInt8} {a : ℕ} (h : ∀ x, a ≤ x → x < a + 12 → m' x = m x) :
    links m' a = links m a := by
  have hword : ∀ b, a ≤ b → b + 4 ≤ a + 12 → wordAt m' b = wordAt m b := fun b h₁ h₂ =>
    ofLe_congr fun i hi => h (b + i) (by omega) (by omega)
  have hhalf : halfAt m' (a + 2) = halfAt m (a + 2) :=
    halfAt_congr fun i hi => h (a + 2 + i) (by omega) (by omega)
  rw [links, hword _ (by omega) (by omega), hword _ (by omega) (by omega), hhalf]
  rfl

theorem storeWord_of_out {m : ℕ → UInt8} {a x : ℕ} {v : UInt32} (h : x < a ∨ a + 4 ≤ x) :
    storeWord m a v x = m x :=
  scatter_of_forall_ne fun _ _ => by omega

theorem storeHalf_of_out {m : ℕ → UInt8} {a x : ℕ} {v : UInt16} (h : x < a ∨ a + 2 ≤ x) :
    storeHalf m a v x = m x :=
  scatter_of_forall_ne fun _ _ => by omega

theorem halfAt_storeWord_of_disjoint {m : ℕ → UInt8} {a b : ℕ} {v : UInt32}
    (h : a + 4 ≤ b ∨ b + 2 ≤ a) : halfAt (storeWord m a v) b = halfAt m b :=
  halfAt_congr fun _ _ => storeWord_of_out (by omega)

theorem wordAt_storeHalf_of_disjoint {m : ℕ → UInt8} {a b : ℕ} {v : UInt16}
    (h : a + 2 ≤ b ∨ b + 4 ≤ a) : wordAt (storeHalf m a v) b = wordAt m b :=
  ofLe_congr fun _ _ => storeHalf_of_out (by omega)

theorem halfAt_storeHalf_of_disjoint {m : ℕ → UInt8} {a b : ℕ} {v : UInt16}
    (h : a + 2 ≤ b ∨ b + 2 ≤ a) : halfAt (storeHalf m a v) b = halfAt m b :=
  halfAt_congr fun _ _ => storeHalf_of_out (by omega)

namespace Heap

variable {h : Heap} {mem v : UInt32} {a : ℕ}

theorem links_setNext_self (ha : mem.toNat = a) :
    links (h.setNext mem v).ram a = { links h.ram a with next := v.toNat } := by
  subst ha
  simp only [links, setNext, wordAt_storeWord]
  rw [wordAt_storeWord_of_disjoint (by omega), halfAt_storeWord_of_disjoint (by omega)]

theorem links_setPrev_self (ha : mem.toNat = a) :
    links (h.setPrev mem v).ram a = { links h.ram a with prev := v.toNat } := by
  subst ha
  simp only [links, setPrev, wordAt_storeWord]
  rw [wordAt_storeWord_of_disjoint (by omega), halfAt_storeWord_of_disjoint (by omega)]

theorem links_setUsed_self {u : UInt16} (ha : mem.toNat = a) :
    links (h.setUsed mem u).ram a = { links h.ram a with used := u != 0 } := by
  subst ha
  simp only [links, setUsed, halfAt_storeHalf]
  rw [wordAt_storeHalf_of_disjoint (by omega), wordAt_storeHalf_of_disjoint (by omega)]

theorem links_setMagic {u : UInt16} (ha : mem.toNat = a ∨ mem.toNat + 12 ≤ a ∨ a + 12 ≤ mem.toNat) :
    links (h.setMagic mem u).ram a = links h.ram a := by
  simp only [links, setMagic]
  rw [wordAt_storeHalf_of_disjoint (by omega), wordAt_storeHalf_of_disjoint (by omega),
    halfAt_storeHalf_of_disjoint (by omega)]

theorem links_setNext_of_apart (ha : mem.toNat + 12 ≤ a ∨ a + 12 ≤ mem.toNat) :
    links (h.setNext mem v).ram a = links h.ram a :=
  links_congr fun _ _ _ => storeWord_of_out (by omega)

theorem links_setPrev_of_apart (ha : mem.toNat + 12 ≤ a ∨ a + 12 ≤ mem.toNat) :
    links (h.setPrev mem v).ram a = links h.ram a :=
  links_congr fun _ _ _ => storeWord_of_out (by omega)

theorem links_setUsed_of_apart {u : UInt16} (ha : mem.toNat + 12 ≤ a ∨ a + 12 ≤ mem.toNat) :
    links (h.setUsed mem u).ram a = links h.ram a :=
  links_congr fun _ _ _ => storeHalf_of_out (by omega)

/-- What the header at an offset says. -/
def header (h : Heap) (o : ℕ) : Header := links h.ram (h.heapPtr.toNat + o)

variable {o x : ℕ}

theorem header_setNext (hmem : mem.toNat = h.heapPtr.toNat + o)
    (hx : x = o ∨ x + 12 ≤ o ∨ o + 12 ≤ x) : (h.setNext mem v).header x =
      if x = o then { h.header x with next := v.toNat } else h.header x := by
  change links _ (h.heapPtr.toNat + x) = _
  split
  · rename_i hxo
    exact links_setNext_self (by rw [hmem, hxo])
  · exact links_setNext_of_apart (by omega)

theorem header_setPrev (hmem : mem.toNat = h.heapPtr.toNat + o)
    (hx : x = o ∨ x + 12 ≤ o ∨ o + 12 ≤ x) : (h.setPrev mem v).header x =
      if x = o then { h.header x with prev := v.toNat } else h.header x := by
  change links _ (h.heapPtr.toNat + x) = _
  split
  · rename_i hxo
    exact links_setPrev_self (by rw [hmem, hxo])
  · exact links_setPrev_of_apart (by omega)

theorem header_setUsed {u : UInt16} (hmem : mem.toNat = h.heapPtr.toNat + o)
    (hx : x = o ∨ x + 12 ≤ o ∨ o + 12 ≤ x) : (h.setUsed mem u).header x =
      if x = o then { h.header x with used := u != 0 } else h.header x := by
  change links _ (h.heapPtr.toNat + x) = _
  split
  · rename_i hxo
    exact links_setUsed_self (by rw [hmem, hxo])
  · exact links_setUsed_of_apart (by omega)

theorem header_setMagic {u : UInt16} (hmem : mem.toNat = h.heapPtr.toNat + o)
    (hx : x = o ∨ x + 12 ≤ o ∨ o + 12 ≤ x) : (h.setMagic mem u).header x = h.header x := by
  change links _ (h.heapPtr.toNat + x) = _
  exact links_setMagic (by omega)

theorem toNat_next (hmem : mem.toNat = h.heapPtr.toNat + o) :
    (h.next mem).toNat = (h.header o).next := by
  rw [next, hmem]
  rfl

theorem toNat_prev (hmem : mem.toNat = h.heapPtr.toNat + o) :
    (h.prev mem).toNat = (h.header o).prev := by
  rw [prev, hmem]
  rfl

theorem used_eq_zero_iff (hmem : mem.toNat = h.heapPtr.toNat + o) :
    h.used mem = 0 ↔ (h.header o).used = false := by
  rw [used, hmem]
  exact bne_eq_false_iff_eq.symm

end Heap

/-! ### The arena -/

/-- The place of the heap: `len` bytes of blocks from `base` on, and the end behind them. -/
structure Arena where
  base : ℕ
  len : ℕ
  aligned : 8 ∣ base
  inRam : base + len + 16 < 2 ^ 32

/-- The arena is laid out in the blocks. -/
structure Laid (A : Arena) (h : Heap) (gs : List Block) : Prop where
  heapPtr : h.heapPtr.toNat = A.base
  heapEnd : h.heapEnd.toNat = A.base + A.len
  size : h.memSizeAligned.toNat + 16 = A.len
  stop : (h.header A.len).used = true ∧ (h.header A.len).next = A.len
  tiles : Tiles h.header 0 0 gs
  total : total gs = A.len
  sizes : ∀ g ∈ gs, 16 ≤ g.size ∧ 8 ∣ g.size
  lfree : ∃ o, h.lfree.toNat = A.base + o ∧ (o ∈ seams 0 gs ∨ o = A.len)

/-- The statics that say where the heap is, and `lfree`. -/
structure SameArena (h h' : Heap) : Prop where
  heapPtr : h'.heapPtr = h.heapPtr
  heapEnd : h'.heapEnd = h.heapEnd
  size : h'.memSizeAligned = h.memSizeAligned
  lfree : h'.lfree = h.lfree

theorem SameArena.trans {h h₁ h₂ : Heap} (h01 : SameArena h h₁) (h12 : SameArena h₁ h₂) :
    SameArena h h₂ :=
  ⟨h12.heapPtr.trans h01.heapPtr, h12.heapEnd.trans h01.heapEnd, h12.size.trans h01.size,
    h12.lfree.trans h01.lfree⟩

/-- `lfree` leaves a block that is taken in by the one in front. -/
theorem Heap.lfree_combine (h : Heap) (mem nmem : UInt32) :
    (h.combine mem nmem).lfree = if h.lfree = nmem then mem else h.lfree := by
  unfold Heap.combine
  simp only
  split <;> rfl

theorem sameArena_linkBack (h : Heap) (ptr2 : UInt32) : SameArena h (h.linkBack ptr2) := by
  unfold Heap.linkBack
  simp only
  split <;> exact ⟨rfl, rfl, rfl, rfl⟩

namespace Laid

variable {A : Arena} {h h' : Heap} {l r gs : List Block} {g g' : Block} {mem nmem : UInt32}

theorem le_size (hL : Laid A h gs) : ∀ g ∈ gs, 16 ≤ g.size := fun g hg => (hL.sizes g hg).1

/-- Writes that leave the headers of the blocks, and the end, leave the blocks. -/
theorem of_header (hL : Laid A h gs) (hsame : SameArena h h')
    (hH : ∀ x, x ∈ seams 0 gs ∨ x = A.len → h'.header x = h.header x) : Laid A h' gs where
  heapPtr := by rw [hsame.heapPtr, hL.heapPtr]
  heapEnd := by rw [hsame.heapEnd, hL.heapEnd]
  size := by rw [hsame.size, hL.size]
  stop := by rw [hH _ (.inr rfl)]; exact hL.stop
  tiles := hL.tiles.congr fun x hx => hH x (.inl hx)
  total := hL.total
  sizes := hL.sizes
  lfree := by rw [hsame.lfree]; exact hL.lfree

theorem toNat_entry (hL : Laid A h gs) {ptr : UInt32} (hptr : ptr.toNat ≤ A.len) :
    (h.entry ptr).toNat = A.base + ptr.toNat := by
  have hram := A.inRam
  rw [Heap.entry, toNat_add_of_lt (by rw [hL.heapPtr]; omega), hL.heapPtr]

/-- Where a pointer into the arena points. -/
theorem toNat_sub_heapPtr (hL : Laid A h gs) {o : ℕ} (hmem : mem.toNat = A.base + o) :
    (mem - h.heapPtr).toNat = o := by
  rw [toNat_sub_of_le (by rw [hL.heapPtr]; omega), hmem, hL.heapPtr, Nat.add_sub_cancel_left]

/-- The header of a block. -/
theorem header_at (hL : Laid A h (l ++ g :: r)) :
    h.header (Tiling.total l) =
      ⟨Tiling.total l + g.size, lastSeam 0 0 l, g.used⟩ := by
  have hhd := hL.tiles.header
  rwa [Nat.zero_add] at hhd

/-- The blocks before a block end where it starts, or further down. -/
theorem apart_left (hL : Laid A h (l ++ gs)) {x : ℕ} (hx : x ∈ seams 0 l) :
    x + 16 ≤ Tiling.total l := by
  have hle := add_le_of_mem_seams (w := 16)
    (fun g hg => hL.le_size g (List.mem_append_left _ hg)) hx
  rwa [Nat.zero_add] at hle

/-- The end is behind the blocks. -/
theorem end_eq (hL : Laid A h (l ++ g :: r)) :
    A.len = Tiling.total l + g.size + Tiling.total r := by
  rw [← hL.total, total_append, total_cons, Nat.add_assoc]

/-- The pointer to a block. -/
theorem toNat_entry_at (hL : Laid A h (l ++ g :: r)) {ptr : UInt32}
    (hptr : ptr.toNat = Tiling.total l) : (h.entry ptr).toNat = A.base + Tiling.total l := by
  have hend := hL.end_eq
  rw [hL.toNat_entry (by omega), hptr]

/-- Where the data of a block starts. -/
theorem toNat_data (hL : Laid A h (l ++ g :: r)) {ptr : UInt32}
    (hptr : ptr.toNat = Tiling.total l) :
    (ptr + sizeofStructMem).toNat = Tiling.total l + 16 := by
  have hend := hL.end_eq
  have hram := A.inRam
  rw [toNat_add_of_lt] <;> rw [toNat_sizeofStructMem, hptr]
  omega

/-- What is at or behind a place is at it, or clear of it. -/
theorem at_or_behind {a : ℕ} (hw : ∀ g ∈ r, 16 ≤ g.size) {x : ℕ}
    (hx : x ∈ seams a r ∨ x = a + Tiling.total r) : x = a ∨ a + 16 ≤ x := by
  obtain hx | rfl := hx
  · exact eq_or_add_le_of_mem_seams hw hx
  · cases r with
    | nil => exact .inl rfl
    | cons g r =>
      have hg := hw g List.mem_cons_self
      rw [total_cons]
      omega

/-- `lfree` may be any block. -/
theorem setLfree (hL : Laid A h gs) {o : ℕ} (hmem : mem.toNat = A.base + o)
    (ho : o ∈ seams 0 gs ∨ o = A.len) : Laid A { h with lfree := mem } gs where
  heapPtr := hL.heapPtr
  heapEnd := hL.heapEnd
  size := hL.size
  stop := hL.stop
  tiles := hL.tiles
  total := hL.total
  sizes := hL.sizes
  lfree := ⟨o, hmem, ho⟩

/-- A neighbour that `lfree` is at leaves it to the block in front. -/
theorem combine_lfree (hlf : h.lfree = nmem) (hne : mem ≠ nmem) :
    h.combine mem nmem = Heap.combine { h with lfree := mem } mem nmem := by
  simp only [Heap.combine, if_pos hlf, if_neg hne]

/-- The headers once two neighbours are one block that ends at `e`. -/
theorem header_combine {o o' e x : ℕ} (hlf : h.lfree ≠ nmem) (hmem : mem.toNat = h.heapPtr.toNat + o)
    (hnmem : nmem.toNat = h.heapPtr.toNat + o') (hnext : (h.header o').next = e)
    (hapart : o + 12 ≤ o') (he : h.heapPtr.toNat + e < 2 ^ 32)
    (hx : x + 12 ≤ o ∨ x = o ∧ o + 12 ≤ e ∨ o + 12 ≤ x ∧ (x = e ∨ e + 12 ≤ x)) (ho : o ≤ e) :
    (h.combine mem nmem).header x =
      if x = e then { h.header x with prev := o }
      else if x = o then { h.header x with next := e } else h.header x := by
  have hne : (h.setNext mem (h.next nmem)).next nmem = h.next nmem := by
    apply UInt32.toNat_inj.mp
    rw [Heap.toNat_next (h := h.setNext mem (h.next nmem)) hnmem,
      Heap.header_setNext hmem (.inr (.inr hapart)), if_neg (by omega), Heap.toNat_next hnmem]
  have hent : (h.entry (h.next nmem)).toNat = h.heapPtr.toNat + e := by
    rw [Heap.entry, toNat_add_of_lt] <;> rw [Heap.toNat_next hnmem, hnext]
    exact he
  have hsub : (mem - h.heapPtr).toNat = o := by
    rw [toNat_sub_of_le (by omega)]
    omega
  have hprev := Heap.header_setPrev (h := h.setNext mem (h.next nmem)) (v := mem - h.heapPtr)
    (x := x) hent (by omega)
  have hnx := Heap.header_setNext (v := h.next nmem) (x := x) hmem (by omega)
  rw [Heap.toNat_next hnmem, hnext] at hnx
  rw [hsub, hnx] at hprev
  simp only [Heap.combine, if_neg hlf, hne]
  refine Eq.trans hprev ?_
  by_cases hxe : x = e
  · rw [if_pos hxe, if_pos hxe, if_neg (by omega)]
  · rw [if_neg hxe, if_neg hxe]

/-- **Two neighbours become one.** -/
theorem combine (hL : Laid A h (l ++ g :: g' :: r)) (hmem : mem.toNat = A.base + Tiling.total l)
    (hnmem : nmem.toNat = A.base + (Tiling.total l + g.size)) :
    Laid A (h.combine mem nmem) (l ++ ⟨g.size + g'.size, g.used⟩ :: r) := by
  have hg : 16 ≤ g.size := hL.le_size g (by simp)
  have hr : ∀ b ∈ r, 16 ≤ b.size := fun b hb => hL.le_size b (by simp [hb])
  -- `lfree` is somewhere else, or may be moved to the block in front before
  wlog hlf : h.lfree ≠ nmem generalizing h
  · rw [combine_lfree (not_not.mp hlf) fun heq => by rw [heq] at hmem; omega]
    refine this (hL.setLfree hmem (.inl (by simp))) fun heq => ?_
    replace heq : mem = nmem := heq
    rw [heq] at hmem
    omega
  have hL' : Laid A h ((l ++ [g]) ++ g' :: r) := by rwa [List.append_assoc]
  have hend := hL'.end_eq
  have hnext := congrArg Header.next hL'.header_at
  simp only [total_append, total_cons, total_nil, Nat.add_zero] at hend hnext
  have hram := A.inRam
  have hH := fun x => header_combine (x := x) hlf (hL.heapPtr ▸ hmem) (hL.heapPtr ▸ hnmem) hnext
    (by omega) (by rw [hL.heapPtr]; omega)
  have hbehind := fun x => @at_or_behind r (Tiling.total l + g.size + g'.size) hr x
  have hkeep : SameArena h (h.combine mem nmem) := by
    simp only [Heap.combine, if_neg hlf]
    exact ⟨rfl, rfl, rfl, rfl⟩
  refine ⟨by rw [hkeep.heapPtr, hL.heapPtr], by rw [hkeep.heapEnd, hL.heapEnd],
    by rw [hkeep.size, hL.size], ?_, ?_, ?_, ?_, ?_⟩
  · have hstop := hbehind A.len (.inr hend)
    rw [hH A.len (by omega) (by omega)]
    split
    · exact hL.stop
    · rw [if_neg (by omega)]
      exact hL.stop
  · refine hL.tiles.fuse hr (by decide) (fun x hx => ?_) ?_ fun x hx => ?_
    · have hle := hL.apart_left hx
      rw [hH x (by omega) (by omega), if_neg (by omega), if_neg (by omega)]
    · simp only [Nat.zero_add]
      rw [hH _ (by omega) (by omega), if_neg (by omega), if_pos rfl]
    · simp only [Nat.zero_add] at hx ⊢
      have hle := hbehind x (.inl hx)
      rw [hH x (by omega) (by omega)]
      congr 1
      exact if_neg (by omega)
  · rw [← hL.total]
    simp [Nat.add_assoc]
  · intro b hb
    rw [List.mem_append, List.mem_cons] at hb
    obtain hb | rfl | hb := hb
    · exact hL.sizes b (by simp [hb])
    · have h8 := (hL.sizes g (by simp)).2
      exact ⟨by simp only; omega, Nat.dvd_add h8 (hL.sizes g' (by simp)).2⟩
    · exact hL.sizes b (by simp [hb])
  · obtain ⟨o, hlo, ho⟩ := hL.lfree
    refine ⟨o, by rw [hkeep.lfree, hlo], ho.imp_left fun ho => ?_⟩
    have hne : o ≠ Tiling.total l + g.size := fun heq =>
      hlf (UInt32.toNat_inj.mp (by rw [hlo, hnmem, heq]))
    simp only [seams_append, seams_cons, Nat.zero_add, List.mem_append, List.mem_cons] at ho ⊢
    rw [← Nat.add_assoc]
    exact ho.imp_right (Or.imp_right fun ho => ho.resolve_left hne)

/-- A block is marked. -/
theorem setUsed (hL : Laid A h (l ++ g :: r)) {u : UInt16}
    (hmem : mem.toNat = A.base + Tiling.total l) :
    Laid A (h.setUsed mem u) (l ++ { g with used := u != 0 } :: r) := by
  have hg : 16 ≤ g.size := hL.le_size g (by simp)
  have hr : ∀ b ∈ r, 16 ≤ b.size := fun b hb => hL.le_size b (by simp [hb])
  have hH := fun x => Heap.header_setUsed (u := u) (x := x) (hL.heapPtr ▸ hmem)
  have hkeep : ∀ x, x ∈ seams 0 l ∨ x ∈ seams (Tiling.total l + g.size) r ∨ x = A.len →
      (h.setUsed mem u).header x = h.header x := by
    rintro x (hx | hx)
    · have hle := hL.apart_left hx
      rw [hH x (by omega), if_neg (by omega)]
    · have hle := at_or_behind hr (hx.imp_right fun heq => heq.trans hL.end_eq)
      rw [hH x (by omega), if_neg (by omega)]
  refine ⟨hL.heapPtr, hL.heapEnd, hL.size, ?_, ?_, ?_, ?_, ?_⟩
  · rw [hkeep _ (.inr (.inr rfl))]
    exact hL.stop
  · refine hL.tiles.retag (fun x hx => hkeep x (.inl hx)) ?_ fun x hx => ?_
    · rw [Nat.zero_add, hH _ (.inl rfl), if_pos rfl]
    · rw [Nat.zero_add] at hx
      exact hkeep x (.inr (.inl hx))
  · rw [← hL.total]
    simp
  · intro b hb
    rw [List.mem_append, List.mem_cons] at hb
    obtain hb | rfl | hb := hb
    · exact hL.sizes b (by simp [hb])
    · exact hL.sizes g (by simp)
    · exact hL.sizes b (by simp [hb])
  · obtain ⟨o, hlo, ho⟩ := hL.lfree
    exact ⟨o, hlo, by simpa using ho⟩

/-- The headers of a block and of the new one inserted behind it. -/
theorem header_insert {o n x : ℕ} {ptr ptr2 : UInt32} (hptr : ptr.toNat = o)
    (hptr2 : ptr2.toNat = o + n) (hn : 12 ≤ n) (hram : h.heapPtr.toNat + (o + n) < 2 ^ 32)
    (hx : x + 12 ≤ o ∨ x = o ∨ x = o + n ∨ o + n + 12 ≤ x) :
    (h.insert ptr ptr2).header x =
      if x = o then { h.header x with next := o + n }
      else if x = o + n then ⟨(h.header o).next, o, false⟩ else h.header x := by
  have hmem : (h.entry ptr).toNat = h.heapPtr.toNat + o := by
    rw [Heap.entry, toNat_add_of_lt (by omega), hptr]
  have hmem2 : (h.entry ptr2).toNat = h.heapPtr.toNat + (o + n) := by
    rw [Heap.entry, toNat_add_of_lt (by omega), hptr2]
  let h₁ := h.setUsed (h.entry ptr2) 0
  let h₂ := h₁.setNext (h.entry ptr2) (h₁.next (h.entry ptr))
  let h₃ := h₂.setPrev (h.entry ptr2) ptr
  have hnext : (h₁.next (h.entry ptr)).toNat = (h.header o).next := by
    rw [Heap.toNat_next (h := h₁) hmem, Heap.header_setUsed hmem2 (by omega), if_neg (by omega)]
  have e₁ := Heap.header_setUsed (h := h) (u := 0) (x := x) hmem2 (by omega)
  have e₂ := Heap.header_setNext (h := h₁) (v := h₁.next (h.entry ptr)) (x := x) hmem2 (by omega)
  have e₃ := Heap.header_setPrev (h := h₂) (v := ptr) (x := x) hmem2 (by omega)
  have e₄ := Heap.header_setNext (h := h₃) (v := ptr2) (x := x) hmem (by omega)
  change (h₃.setNext (h.entry ptr) ptr2).header x = _
  rw [e₄, e₃, e₂, e₁, hnext, hptr, hptr2]
  obtain rfl | hxo := eq_or_ne x o
  · simp only [if_pos, if_neg (show x ≠ x + n by omega)]
  · simp only [if_neg hxo]
    split
    · rfl
    · rfl

/-- The headers once the block behind the new one is told of it. -/
theorem header_linkBack (hptr : h.heapPtr.toNat = A.base) (hsize : h.memSizeAligned.toNat + 16 = A.len)
    {o e x : ℕ} {ptr2 : UInt32} (hptr2 : ptr2.toNat = o) (ho : o ≤ A.len) (hnext : (h.header o).next = e)
    (he : e ≤ A.len) (hx : x = e ∨ x + 12 ≤ e ∨ e + 12 ≤ x) :
    (h.linkBack ptr2).header x =
      if x = e ∧ e ≠ A.len then { h.header x with prev := o } else h.header x := by
  have hram := A.inRam
  have hmem2 : (h.entry ptr2).toNat = h.heapPtr.toNat + o := by
    rw [Heap.entry, toNat_add_of_lt (by omega), hptr2]
  have htail : (h.entry (h.next (h.entry ptr2))).toNat = h.heapPtr.toNat + e := by
    rw [Heap.entry, toNat_add_of_lt] <;> rw [Heap.toNat_next hmem2, hnext]
    omega
  have hsum : (h.memSizeAligned + sizeofStructMem).toNat = A.len := by
    rw [toNat_add_of_lt] <;> rw [toNat_sizeofStructMem]
    · exact hsize
    · omega
  have hiff : h.next (h.entry ptr2) ≠ h.memSizeAligned + sizeofStructMem ↔ e ≠ A.len := by
    rw [ne_eq, ← UInt32.toNat_inj, Heap.toNat_next hmem2, hnext, hsum]
  rw [Heap.linkBack]
  simp only [hiff]
  by_cases hend : e = A.len
  · rw [if_neg (not_not.mpr hend), if_neg fun hc => hc.2 hend]
  · rw [if_pos hend, Heap.header_setPrev htail hx, hptr2]
    simp only [hend, ne_eq, not_false_eq_true, and_true]

/-- **A block is cut in two**, the second part free, once its headers say so and the block
behind is told. -/
theorem split {h₂ : Heap} {n m : ℕ} {u u' : Bool} {ptr2 : UInt32}
    (hL : Laid A h (l ++ ⟨n + m, u'⟩ :: r)) (hkeep : SameArena h h₂)
    (hn : 16 ≤ n) (hm : 16 ≤ m) (hn8 : 8 ∣ n) (hptr2 : ptr2.toNat = Tiling.total l + n)
    (hold : h₂.header (Tiling.total l) = ⟨Tiling.total l + n, lastSeam 0 0 l, u⟩)
    (hnew : h₂.header (Tiling.total l + n) = ⟨Tiling.total l + n + m, Tiling.total l, false⟩)
    (hrest : ∀ x, x + 16 ≤ Tiling.total l ∨ Tiling.total l + n + m ≤ x →
      h₂.header x = h.header x) :
    Laid A (h₂.linkBack ptr2) (l ++ ⟨n, u⟩ :: ⟨m, false⟩ :: r) := by
  have hr : ∀ b ∈ r, 16 ≤ b.size := fun b hb => hL.le_size b (by simp [hb])
  have hend := hL.end_eq
  rw [show Block.size ⟨n + m, u'⟩ = n + m from rfl, ← Nat.add_assoc] at hend
  have hptr : h₂.heapPtr.toNat = A.base := by rw [hkeep.heapPtr, hL.heapPtr]
  have hsize : h₂.memSizeAligned.toNat + 16 = A.len := by rw [hkeep.size, hL.size]
  have hH := fun x => header_linkBack (x := x) hptr hsize hptr2 (by omega)
    (congrArg Header.next hnew) (by simp only; omega)
  simp only at hH
  have hbehind := fun x => @at_or_behind r (Tiling.total l + n + m) hr x
  have hkeep' := hkeep.trans (sameArena_linkBack h₂ ptr2)
  refine ⟨by rw [hkeep'.heapPtr, hL.heapPtr], by rw [hkeep'.heapEnd, hL.heapEnd],
    by rw [hkeep'.size, hL.size], ?_, ?_, ?_, ?_, ?_⟩
  · have hstop := hbehind A.len (.inr hend)
    rw [hH A.len (by omega), if_neg (by omega), hrest _ (by omega)]
    exact hL.stop
  · refine hL.tiles.split hr (by decide) (fun x hx => ?_) ?_ ?_ fun x hx => ?_
    · have hle := hL.apart_left hx
      rw [hH x (by omega), if_neg (by omega), hrest x (by omega)]
    · rw [Nat.zero_add, hH _ (by omega), if_neg (by omega), hold, hL.header_at]
    · rw [Nat.zero_add, hH _ (by omega), if_neg (by omega), hnew]
    · rw [Nat.zero_add] at hx ⊢
      have hle := hbehind x (.inl hx)
      have hlt := add_le_of_mem_seams hr hx
      rw [hH x (by omega), hrest x (by omega)]
      refine if_congr ?_ rfl rfl
      constructor
      · exact And.left
      · rintro rfl
        exact ⟨rfl, by omega⟩
  · rw [← hL.total]
    simp [Nat.add_assoc]
  · intro b hb
    rw [List.mem_append, List.mem_cons, List.mem_cons] at hb
    obtain hb | rfl | rfl | hb := hb
    · exact hL.sizes b (by simp [hb])
    · exact ⟨hn, hn8⟩
    · exact ⟨hm, (Nat.dvd_add_right hn8).mp (hL.sizes ⟨n + m, u'⟩ (by simp)).2⟩
    · exact hL.sizes b (by simp [hb])
  · obtain ⟨o, hlo, ho⟩ := hL.lfree
    refine ⟨o, by rw [hkeep'.lfree, hlo], ho.imp_left fun ho => ?_⟩
    simp only [seams_append, seams_cons, Nat.zero_add, List.mem_append, List.mem_cons] at ho ⊢
    rw [Nat.add_assoc]
    exact ho.imp_right (Or.imp_right .inr)

/-- The headers when a block is inserted. -/
theorem header_inserted {n m : ℕ} {u : Bool} {ptr ptr2 : UInt32}
    (hL : Laid A h (l ++ ⟨n + m, u⟩ :: r)) (hn : 16 ≤ n) (hptr : ptr.toNat = Tiling.total l)
    (hptr2 : ptr2.toNat = Tiling.total l + n) :
    (h.insert ptr ptr2).header (Tiling.total l) = ⟨Tiling.total l + n, lastSeam 0 0 l, u⟩ ∧
    (h.insert ptr ptr2).header (Tiling.total l + n) =
      ⟨Tiling.total l + n + m, Tiling.total l, false⟩ ∧
    ∀ x, x + 16 ≤ Tiling.total l ∨ Tiling.total l + n + 16 ≤ x →
      (h.insert ptr ptr2).header x = h.header x := by
  have hend := hL.end_eq
  simp only at hend
  have hram := A.inRam
  have hH := fun x => header_insert (h := h) (x := x) hptr hptr2 (by omega)
    (by rw [hL.heapPtr]; omega)
  refine ⟨?_, ?_, fun x hx => ?_⟩
  · rw [hH _ (by omega), if_pos rfl, hL.header_at]
  · rw [hH _ (by omega), if_neg (by omega), if_pos rfl, hL.header_at]
    simp only [Nat.add_assoc]
  · rw [hH x (by omega), if_neg (by omega), if_neg (by omega)]

/-- `rt_malloc` cuts a block in two, the first part in use. -/
theorem cut_used {n m : ℕ} {u : Bool} {ptr ptr2 : UInt32}
    (hL : Laid A h (l ++ ⟨n + m, u⟩ :: r)) (hn : 16 ≤ n) (hm : 16 ≤ m) (hn8 : 8 ∣ n)
    (hptr : ptr.toNat = Tiling.total l) (hptr2 : ptr2.toNat = Tiling.total l + n) :
    Laid A (((h.insert ptr ptr2).setUsed (h.entry ptr) 1).linkBack ptr2)
      (l ++ ⟨n, true⟩ :: ⟨m, false⟩ :: r) := by
  obtain ⟨hold, hnew, hrest⟩ := hL.header_inserted hn hptr hptr2
  have hmem : (h.entry ptr).toNat = h.heapPtr.toNat + Tiling.total l := by
    rw [hL.toNat_entry_at hptr, hL.heapPtr]
  have hH := fun x => Heap.header_setUsed (h := h.insert ptr ptr2) (u := 1) (x := x) hmem
  refine hL.split ⟨rfl, rfl, rfl, rfl⟩ hn hm hn8 hptr2 ?_ ?_ fun x hx => ?_
  · rw [hH _ (.inl rfl), if_pos rfl, hold]
    rfl
  · rw [hH _ (by omega), if_neg (by omega), hnew]
  · rw [hH x (by omega), if_neg (by omega), hrest x (by omega)]

/-- `rt_realloc` cuts the end of a block off. -/
theorem cut {n m : ℕ} {u : Bool} {ptr ptr2 : UInt32}
    (hL : Laid A h (l ++ ⟨n + m, u⟩ :: r)) (hn : 16 ≤ n) (hm : 16 ≤ m) (hn8 : 8 ∣ n)
    (hptr : ptr.toNat = Tiling.total l) (hptr2 : ptr2.toNat = Tiling.total l + n) :
    Laid A ((h.insert ptr ptr2).linkBack ptr2) (l ++ ⟨n, u⟩ :: ⟨m, false⟩ :: r) := by
  obtain ⟨hold, hnew, hrest⟩ := hL.header_inserted hn hptr hptr2
  exact hL.split ⟨rfl, rfl, rfl, rfl⟩ hn hm hn8 hptr2 hold hnew fun x hx => hrest x (by omega)

/-- What a block's header says, read through a pointer. -/
theorem fields_at (hL : Laid A h (l ++ g :: r)) (hmem : mem.toNat = A.base + Tiling.total l) :
    (h.next mem).toNat = Tiling.total l + g.size ∧ (h.prev mem).toNat = lastSeam 0 0 l ∧
      (h.used mem = 0 ↔ g.used = false) := by
  rw [← hL.heapPtr] at hmem
  rw [Heap.toNat_next hmem, Heap.toNat_prev hmem, Heap.used_eq_zero_iff hmem, hL.header_at]
  exact ⟨rfl, rfl, Iff.rfl⟩

/-- How long a block is, as the allocator computes it. -/
theorem toNat_extent (hL : Laid A h (l ++ g :: r)) (hmem : mem.toNat = A.base + Tiling.total l) :
    (h.next mem - (mem - h.heapPtr)).toNat = g.size := by
  have hnext := (hL.fields_at hmem).1
  rw [toNat_sub_of_le] <;> rw [hL.toNat_sub_heapPtr hmem, hnext]
  · exact Nat.add_sub_cancel_left ..
  · exact Nat.le_add_right ..

/-- And how long its data is. -/
theorem toNat_room (hL : Laid A h (l ++ g :: r)) {ptr : UInt32}
    (hptr : ptr.toNat = Tiling.total l) :
    (h.next (h.entry ptr) - (ptr + sizeofStructMem)).toNat = g.size - 16 := by
  have hg : 16 ≤ g.size := hL.le_size g (by simp)
  have hnext := (hL.fields_at (hL.toNat_entry_at hptr)).1
  rw [toNat_sub_of_le] <;> rw [hnext, hL.toNat_data hptr] <;> omega

/-- A free block behind is taken in. -/
theorem plugForward_eq (hL : Laid A h (l ++ g :: g' :: r)) (hmem : mem.toNat = A.base + Tiling.total l)
    (hg' : g'.used = false) :
    (h.entry (h.next mem)).toNat = A.base + (Tiling.total l + g.size) ∧
      h.plugForward mem = h.combine mem (h.entry (h.next mem)) := by
  have hgs : 16 ≤ g.size := hL.le_size g (by simp)
  have hg's : 16 ≤ g'.size := hL.le_size g' (by simp)
  have hL' : Laid A h ((l ++ [g]) ++ g' :: r) := by rwa [List.append_assoc]
  have hend := hL.end_eq
  rw [total_cons] at hend
  have hnext := (hL.fields_at hmem).1
  have hnmem : (h.entry (h.next mem)).toNat = A.base + (Tiling.total l + g.size) := by
    rw [hL.toNat_entry (by omega), hnext]
  have hused : h.used (h.entry (h.next mem)) = 0 ↔ g'.used = false :=
    (hL'.fields_at (by rw [hnmem, total_append, total_cons, total_nil, Nat.add_zero])).2.2
  refine ⟨hnmem, if_pos ⟨fun hc => ?_, hused.mpr hg', fun hc => ?_⟩⟩
  · rw [← hc, hmem] at hnmem
    omega
  · rw [hc, hL.heapEnd] at hnmem
    omega

/-- A free block takes in a free block behind it, and nothing else. -/
theorem plugForward_cases (hL : Laid A h (l ++ g :: r)) (hmem : mem.toNat = A.base + Tiling.total l) :
    (h.plugForward mem = h ∧ ∀ g' ∈ r.head?, g'.used = true) ∨
      ∃ g' r', r = g' :: r' ∧ g'.used = false ∧
        (h.entry (h.next mem)).toNat = A.base + (Tiling.total l + g.size) ∧
        h.plugForward mem = h.combine mem (h.entry (h.next mem)) := by
  have hend := hL.end_eq
  have hnext := (hL.fields_at hmem).1
  have hnmem : (h.entry (h.next mem)).toNat = A.base + (Tiling.total l + g.size) := by
    rw [hL.toNat_entry (by omega), hnext]
  cases r with
  | nil =>
    refine .inl ⟨if_neg fun hc => hc.2.2 (UInt32.toNat_inj.mp ?_), by simp⟩
    rw [hnmem, hL.heapEnd, hend, total_nil, Nat.add_zero]
  | cons g' r =>
    have hL' : Laid A h ((l ++ [g]) ++ g' :: r) := by rwa [List.append_assoc]
    have hused : h.used (h.entry (h.next mem)) = 0 ↔ g'.used = false :=
      (hL'.fields_at (by rw [hnmem, total_append, total_cons, total_nil, Nat.add_zero])).2.2
    by_cases hg' : g'.used = true
    · refine .inl ⟨if_neg fun hc => ?_, by simpa using hg'⟩
      rw [hused.mp hc.2.1] at hg'
      cases hg'
    · have hg'f : g'.used = false := Bool.eq_false_iff.mpr hg'
      exact .inr ⟨g', r, rfl, hg'f, hL.plugForward_eq hmem hg'f⟩

/-- A free block takes in a free block behind it. -/
theorem plugForward (hL : Laid A h (l ++ g :: r)) (hmem : mem.toNat = A.base + Tiling.total l)
    (hg : g.used = false) (hr : Separate r) :
    ∃ g₁ r₁, Laid A (h.plugForward mem) (l ++ g₁ :: r₁) ∧ g₁.used = false ∧
      Separate (g₁ :: r₁) ∧ usedSeams (Tiling.total l) (g₁ :: r₁) = usedSeams (Tiling.total l) (g :: r) ∧
      usedTotal (g₁ :: r₁) = usedTotal (g :: r) ∧
      seams (Tiling.total l) (g₁ :: r₁) ⊆ seams (Tiling.total l) (g :: r) ∧
      usedSpans (Tiling.total l) (g₁ :: r₁) = usedSpans (Tiling.total l) (g :: r) := by
  rcases hL.plugForward_cases hmem with ⟨heq, hhead⟩ | ⟨g', r, rfl, hg', hnmem, heq⟩
  · refine ⟨g, r, by rwa [heq], hg, ?_, rfl, rfl, List.Subset.refl _, rfl⟩
    cases r with
    | nil => exact separate_singleton g
    | cons g' r => exact hr.cons_cons (.inr (hhead g' rfl))
  · refine ⟨⟨g.size + g'.size, g.used⟩, r, heq ▸ hL.combine hmem hnmem, hg, ?_, ?_, ?_, ?_, ?_⟩
    · exact hr.congr (by simp [hg, hg'])
    · simp [hg, hg', Nat.add_assoc]
    · simp [hg, hg']
    · exact seams_fuse_subset ..
    · simp [hg, hg', Nat.add_assoc]

/-- A free block is taken in by a free block in front of it, and by nothing else. -/
theorem plugBackward_cases (hL : Laid A h (l ++ g :: r))
    (hmem : mem.toNat = A.base + Tiling.total l) :
    (h.plugBackward mem = h ∧ (l = [] ∨ ∃ l₀ b, l = l₀ ++ [b] ∧ b.used = true)) ∨
      ∃ l₀ b, l = l₀ ++ [b] ∧ b.used = false ∧
        (h.entry (h.prev mem)).toNat = A.base + Tiling.total l₀ ∧
        h.plugBackward mem = h.combine (h.entry (h.prev mem)) mem := by
  have hend := hL.end_eq
  have hprev := (hL.fields_at hmem).2.1
  obtain rfl | ⟨l, b, rfl⟩ := List.eq_nil_or_concat' l
  · refine .inl ⟨if_neg fun hc => hc.1 (UInt32.toNat_inj.mp ?_), .inl rfl⟩
    rw [hL.toNat_entry (by rw [hprev, lastSeam_nil]; omega), hprev, hmem]
    rfl
  · have hL' : Laid A h (l ++ b :: g :: r) := by simpa using hL
    have hb : 16 ≤ b.size := hL'.le_size b (by simp)
    rw [total_append, total_cons, total_nil, Nat.add_zero] at hmem hend
    rw [lastSeam_concat, Nat.zero_add] at hprev
    have hpmem : (h.entry (h.prev mem)).toNat = A.base + Tiling.total l := by
      rw [hL.toNat_entry (by omega), hprev]
    have hused : h.used (h.entry (h.prev mem)) = 0 ↔ b.used = false := (hL'.fields_at hpmem).2.2
    by_cases hbu : b.used = true
    · refine .inl ⟨if_neg fun hc => ?_, .inr ⟨l, b, rfl, hbu⟩⟩
      rw [hused.mp hc.2] at hbu
      cases hbu
    · have hbf : b.used = false := Bool.eq_false_iff.mpr hbu
      refine .inr ⟨l, b, rfl, hbf, hpmem, if_pos ⟨fun hc => ?_, hused.mpr hbf⟩⟩
      rw [hc, hmem] at hpmem
      omega

/-- And a free block in front of it takes it in. -/
theorem plugBackward (hL : Laid A h (l ++ g :: r)) (hmem : mem.toNat = A.base + Tiling.total l)
    (hg : g.used = false) (hl : Separate l) (hr : Separate (g :: r)) :
    ∃ gs, Laid A (h.plugBackward mem) gs ∧ Separate gs ∧
      usedSeams 0 gs = usedSeams 0 (l ++ g :: r) ∧ usedTotal gs = usedTotal (l ++ g :: r) ∧
      seams 0 gs ⊆ seams 0 (l ++ g :: r) := by
  rcases hL.plugBackward_cases hmem with ⟨heq, hfront⟩ | ⟨l, b, rfl, hb, hpmem, heq⟩
  · refine ⟨l ++ g :: r, by rwa [heq], ?_, rfl, rfl, List.Subset.refl _⟩
    rcases hfront with rfl | ⟨l, b, rfl, hb⟩
    · exact hr
    · rw [List.append_assoc]
      exact separate_append_cons.mpr ⟨hl, hr.cons_used hb⟩
  · have hL' : Laid A h (l ++ b :: g :: r) := by simpa using hL
    have hmem' : mem.toNat = A.base + (Tiling.total l + b.size) := by
      rw [hmem, total_append, total_cons, total_nil, Nat.add_zero]
    refine ⟨l ++ ⟨b.size + g.size, b.used⟩ :: r, heq ▸ hL'.combine hpmem hmem', ?_, ?_, ?_, ?_⟩
    · exact separate_append_cons.mpr
        ⟨hl.congr (by simp), hr.congr (by simp [hg, hb])⟩
    · simp [hg, hb, Nat.add_assoc]
    · simp [hg, hb]
    · rw [List.append_assoc]
      exact seams_append_subset (seams_fuse_subset ..)

/-- **A free block and its free neighbours become one.** -/
theorem plugHoles (hL : Laid A h (l ++ g :: r)) (hmem : mem.toNat = A.base + Tiling.total l)
    (hg : g.used = false) (hl : Separate l) (hr : Separate r) :
    ∃ gs, Laid A (h.plugHoles mem) gs ∧ Separate gs ∧
      usedSeams 0 gs = usedSeams 0 (l ++ g :: r) ∧ usedTotal gs = usedTotal (l ++ g :: r) ∧
      seams 0 gs ⊆ seams 0 (l ++ g :: r) := by
  obtain ⟨g₁, r₁, hL₁, hg₁, hr₁, hseams, htotal, hsub, -⟩ := hL.plugForward hmem hg hr
  obtain ⟨gs, hgs, hsep, hseams', htotal', hsub'⟩ := hL₁.plugBackward hmem hg₁ hl hr₁
  refine ⟨gs, hgs, hsep, ?_, ?_, List.Subset.trans hsub' (seams_append_subset ?_)⟩
  · rw [hseams', usedSeams_append, usedSeams_append, Nat.zero_add, hseams]
  · rw [htotal', usedTotal_append, usedTotal_append, htotal]
  · rw [Nat.zero_add]
    exact hsub

/-- Then `lfree` is where it was, or further down; from a free block behind it comes down to
the block. -/
theorem lfree_plugHoles (hL : Laid A h (l ++ g :: r)) (hmem : mem.toNat = A.base + Tiling.total l)
    (hg : g.used = false) (hr : Separate r) :
    (h.plugHoles mem).lfree.toNat ≤ h.lfree.toNat ∧
      ∀ b ∈ r.head?, b.used = false → h.lfree.toNat = A.base + (Tiling.total l + g.size) →
        (h.plugHoles mem).lfree.toNat ≤ mem.toNat := by
  have hend := hL.end_eq
  have hfwd : (h.plugForward mem).lfree.toNat ≤ h.lfree.toNat := by
    unfold Heap.plugForward
    simp only
    split
    · have hnext := (hL.fields_at hmem).1
      have hnmem : (h.entry (h.next mem)).toNat = A.base + (h.next mem).toNat :=
        hL.toNat_entry (by omega)
      rw [Heap.lfree_combine]
      split
      · rename_i hlf
        rw [hlf]
        omega
      · exact le_rfl
    · exact le_rfl
  have hback : (h.plugHoles mem).lfree.toNat ≤ (h.plugForward mem).lfree.toNat := by
    obtain ⟨g₁, r₁, hL₁, -⟩ := hL.plugForward hmem hg hr
    have hend₁ := hL₁.end_eq
    have hprev := (hL₁.fields_at hmem).2.1
    have hle : lastSeam 0 0 l ≤ Tiling.total l := by
      obtain rfl | ⟨l, b, rfl⟩ := List.eq_nil_or_concat' l
      · exact le_rfl
      · rw [lastSeam_concat, total_append]
        omega
    have hpmem : ((h.plugForward mem).entry ((h.plugForward mem).prev mem)).toNat =
        A.base + ((h.plugForward mem).prev mem).toNat := hL₁.toNat_entry (by omega)
    unfold Heap.plugHoles Heap.plugBackward
    simp only
    split
    · rw [Heap.lfree_combine]
      split
      · rename_i hlf
        rw [hlf]
        omega
      · exact le_rfl
    · exact le_rfl
  refine ⟨hback.trans hfwd, fun b hb hbu hlf => hback.trans ?_⟩
  obtain ⟨r, rfl⟩ : ∃ r', r = b :: r' := List.head?_eq_some_iff.mp hb
  obtain ⟨hnmem, heq⟩ := hL.plugForward_eq hmem hbu
  rw [heq, Heap.lfree_combine, if_pos (UInt32.toNat_inj.mp (hlf.trans hnmem.symm))]

/-- The headers stand clear of each other, and of the end. -/
theorem apart (hL : Laid A h (l ++ g :: r)) {x : ℕ}
    (hx : x ∈ seams 0 (l ++ g :: r) ∨ x = A.len) :
    x + 16 ≤ Tiling.total l ∨ x = Tiling.total l ∨ Tiling.total l + g.size ≤ x := by
  rw [seams_append, seams_cons, Nat.zero_add, List.mem_append, List.mem_cons] at hx
  obtain (hx | hx | hx) | rfl := hx
  · exact .inl (hL.apart_left hx)
  · exact .inr (.inl hx)
  · exact .inr (.inr (le_of_mem_seams hx))
  · exact .inr (.inr (by rw [hL.end_eq]; omega))

/-- A block is in use where the list says so. -/
theorem mem_usedSeams_iff (hL : Laid A h (l ++ g :: r)) :
    Tiling.total l ∈ usedSeams 0 (l ++ g :: r) ↔ g.used = true := by
  have hg : 16 ≤ g.size := hL.le_size g (by simp)
  rw [usedSeams_append, usedSeams_cons, Nat.zero_add, List.mem_append, List.mem_append]
  constructor
  · rintro (hx | hx | hx)
    · have hle := hL.apart_left (usedSeams_subset _ _ hx)
      omega
    · split at hx
      · assumption
      · cases hx
    · have hle := le_of_mem_seams (usedSeams_subset _ _ hx)
      omega
  · intro hu
    rw [if_pos hu]
    exact .inr (.inl (List.mem_singleton.mpr rfl))

theorem setMagic (hL : Laid A h (l ++ g :: r)) {u : UInt16}
    (hmem : mem.toNat = A.base + Tiling.total l) : Laid A (h.setMagic mem u) (l ++ g :: r) := by
  have hg : 16 ≤ g.size := hL.le_size g (by simp)
  refine hL.of_header ⟨rfl, rfl, rfl, rfl⟩ fun x hx => ?_
  have hap := hL.apart hx
  exact Heap.header_setMagic (hL.heapPtr ▸ hmem) (by omega)

/-- What is written between the header of a block and the next one leaves the blocks. -/
theorem setRam (hL : Laid A h (l ++ g :: r)) {ram : ℕ → UInt8}
    (hram : ∀ a, a < A.base + Tiling.total l + 16 ∨ A.base + Tiling.total l + g.size ≤ a →
      ram a = h.ram a) : Laid A { h with ram := ram } (l ++ g :: r) := by
  refine hL.of_header ⟨rfl, rfl, rfl, rfl⟩ fun x hx => ?_
  have hap := hL.apart hx
  have hptr := hL.heapPtr
  exact links_congr fun a ha₁ ha₂ => hram a (by simp only at ha₁ ha₂; omega)

/-- The statistics play no part in the layout. -/
theorem setStats (hL : Laid A h gs) (usedMem maxMem : UInt32) :
    Laid A { h with usedMem := usedMem, maxMem := maxMem } gs :=
  hL.of_header ⟨rfl, rfl, rfl, rfl⟩ fun _ _ => rfl

end Laid

namespace Heap

theorem stats_combine (h : Heap) (mem nmem : UInt32) :
    (h.combine mem nmem).usedMem = h.usedMem ∧ (h.combine mem nmem).maxMem = h.maxMem := by
  unfold combine
  simp only
  split <;> exact ⟨rfl, rfl⟩

theorem stats_plugHoles (h : Heap) (mem : UInt32) :
    (h.plugHoles mem).usedMem = h.usedMem ∧ (h.plugHoles mem).maxMem = h.maxMem := by
  have hfwd : (h.plugForward mem).usedMem = h.usedMem ∧ (h.plugForward mem).maxMem = h.maxMem := by
    unfold plugForward
    simp only
    split
    · exact stats_combine ..
    · exact ⟨rfl, rfl⟩
  rw [← hfwd.1, ← hfwd.2]
  unfold plugHoles plugBackward
  simp only
  split
  · exact stats_combine ..
  · exact ⟨rfl, rfl⟩

theorem stats_linkBack (h : Heap) (ptr2 : UInt32) :
    (h.linkBack ptr2).usedMem = h.usedMem ∧ (h.linkBack ptr2).maxMem = h.maxMem := by
  unfold linkBack
  simp only
  split <;> exact ⟨rfl, rfl⟩

theorem stats_shrink (h : Heap) (ptr size newsize : UInt32) :
    (h.shrink ptr size newsize).usedMem = h.usedMem - (size - newsize) ∧
      (h.shrink ptr size newsize).maxMem = h.maxMem := by
  unfold shrink
  simp only
  rw [(stats_plugHoles ..).1, (stats_plugHoles ..).2, (stats_linkBack ..).1, (stats_linkBack ..).2]
  exact ⟨rfl, rfl⟩

end Heap

end Start01
