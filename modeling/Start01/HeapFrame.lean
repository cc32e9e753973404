/-
Start01/HeapFrame.lean

What a call of the allocator leaves alone.  The header of a block in use is written to by
its neighbours, but only in the link back: where the block ends, and what it holds, is left
(`Own`, `Spares`).  So a call leaves all blocks but the one it is about (`SameBlock`):

* `Tidy.sameBlock_malloc` — `rt_malloc` leaves all;
* `Tidy.sameBlock_free` — `rt_free` leaves the others;
* `Tidy.shrink_keeps` — the cut of `rt_realloc` leaves the others, and the data in front of it.
-/
import Start01.HeapLow

namespace Start01

open Scatter Tiling Run

/-- The addresses of a block of `n` bytes at offset `o` that say where it ends, and of its data. -/
def Own (A : Arena) (o n : ℕ) : Set ℕ :=
  {a | A.base + o + 4 ≤ a ∧ a < A.base + o + 8 ∨ A.base + o + 16 ≤ a ∧ a < A.base + o + n}

/-- Nothing is written there. -/
structure Spares (S : Set ℕ) (h h' : Heap) : Prop where
  heapPtr : h'.heapPtr = h.heapPtr
  ram : ∀ a ∈ S, h'.ram a = h.ram a

/-- The block with data at `x` ends where it ended, and holds what it held. -/
structure SameBlock (h h' : Heap) (x : UInt32) : Prop where
  blockEnd : h'.blockEnd x = h.blockEnd x
  data : ∀ a, x.toNat ≤ a → a < h.blockEnd x → h'.ram a = h.ram a

variable {A : Arena} {S : Set ℕ} {h h' h₁ h₂ : Heap} {l r gs gs' : List Block} {g g' b : Block}
  {mem nmem p q x v ptr size : UInt32} {o n : ℕ}

theorem SameBlock.refl (h : Heap) (x : UInt32) : SameBlock h h x := ⟨rfl, fun _ _ _ => rfl⟩

theorem SameBlock.trans (h01 : SameBlock h h₁ x) (h12 : SameBlock h₁ h₂ x) : SameBlock h h₂ x where
  blockEnd := h12.blockEnd.trans h01.blockEnd
  data a hx ha := (h12.data a hx (h01.blockEnd ▸ ha)).trans (h01.data a hx ha)

/-! ### Writes to headers -/

namespace Spares

theorem refl (S : Set ℕ) (h : Heap) : Spares S h h := ⟨rfl, fun _ _ => rfl⟩

theorem trans (h01 : Spares S h h₁) (h12 : Spares S h₁ h₂) : Spares S h h₂ :=
  ⟨h12.heapPtr.trans h01.heapPtr, fun a ha => (h12.ram a ha).trans (h01.ram a ha)⟩

theorem setMagic {u : UInt16} (hout : ∀ a ∈ S, a < mem.toNat ∨ mem.toNat + 2 ≤ a) :
    Spares S h (h.setMagic mem u) := ⟨rfl, fun a ha => storeHalf_of_out (hout a ha)⟩

theorem setUsed {u : UInt16} (hout : ∀ a ∈ S, a < mem.toNat + 2 ∨ mem.toNat + 4 ≤ a) :
    Spares S h (h.setUsed mem u) := ⟨rfl, fun a ha => storeHalf_of_out (hout a ha)⟩

theorem setNext (hout : ∀ a ∈ S, a < mem.toNat + 4 ∨ mem.toNat + 8 ≤ a) :
    Spares S h (h.setNext mem v) := ⟨rfl, fun a ha => storeWord_of_out (hout a ha)⟩

theorem setPrev (hout : ∀ a ∈ S, a < mem.toNat + 8 ∨ mem.toNat + 12 ≤ a) :
    Spares S h (h.setPrev mem v) := ⟨rfl, fun a ha => storeWord_of_out (hout a ha)⟩

/-- The statistics are no part of it. -/
theorem count (S : Set ℕ) (h : Heap) (k : UInt32) : Spares S h (h.count k) := ⟨rfl, fun _ _ => rfl⟩

/-- A block inserted behind another one. -/
theorem insert {ptr2 : UInt32}
    (hmem : ∀ a ∈ S, a < (h.entry ptr).toNat + 4 ∨ (h.entry ptr).toNat + 8 ≤ a)
    (hmem2 : ∀ a ∈ S, a < (h.entry ptr2).toNat ∨ (h.entry ptr2).toNat + 12 ≤ a) :
    Spares S h (h.insert ptr ptr2) := by
  let h₁ := h.setUsed (h.entry ptr2) 0
  let h₂ := h₁.setNext (h.entry ptr2) (h₁.next (h.entry ptr))
  let h₃ := h₂.setPrev (h.entry ptr2) ptr
  have e₁ : Spares S h h₁ := .setUsed fun a ha => (hmem2 a ha).imp (by omega) (by omega)
  have e₂ : Spares S h₁ h₂ := .setNext fun a ha => (hmem2 a ha).imp (by omega) (by omega)
  have e₃ : Spares S h₂ h₃ := .setPrev fun a ha => (hmem2 a ha).imp (by omega) (by omega)
  have e₄ : Spares S h₃ (h₃.setNext (h.entry ptr) ptr2) := .setNext hmem
  exact e₁.trans (e₂.trans (e₃.trans e₄))

/-- The block behind is told. -/
theorem linkBack {ptr2 : UInt32}
    (htail : ∀ a ∈ S, a < (h.entry (h.next (h.entry ptr2))).toNat + 8 ∨
      (h.entry (h.next (h.entry ptr2))).toNat + 12 ≤ a) : Spares S h (h.linkBack ptr2) := by
  unfold Heap.linkBack
  simp only
  split
  · exact .setPrev htail
  · exact .refl ..

end Spares

/-- The link of a block is read from four bytes of its header. -/
theorem Heap.next_congr (hram : ∀ i < 4, h'.ram (mem.toNat + 4 + i) = h.ram (mem.toNat + 4 + i)) :
    h'.next mem = h.next mem := by
  unfold Heap.next wordAt
  exact ofLe_congr hram

namespace Laid

/-- A block in use has room for its header, and no other header reaches into it. -/
theorem span (hL : Laid A h gs) (hx : (o, n) ∈ usedSpans 0 gs) :
    16 ≤ n ∧ o ∈ seams 0 gs ∧
      ∀ o', o' ∈ seams 0 gs ∨ o' = A.len → o' + 16 ≤ o ∨ o' = o ∨ o + n ≤ o' := by
  obtain ⟨l, g, r, rfl, -, rfl, rfl⟩ := mem_usedSpans_iff.mp hx
  refine ⟨hL.le_size g (by simp), by simp, fun o' ho' => ?_⟩
  rw [Nat.zero_add]
  exact hL.apart ho'

/-- A free block is none of those in use. -/
theorem span_ne (hL : Laid A h (l ++ g :: r)) (hg : g.used = false)
    (hx : (o, n) ∈ usedSpans 0 (l ++ g :: r)) : Tiling.total l ≠ o := by
  rintro rfl
  obtain ⟨l', g', r', heq, hg', ho, -⟩ := mem_usedSpans_iff.mp hx
  have hused := hL.mem_usedSeams_iff.mp (Tiling.mem_usedSeams_iff.mpr ⟨l', g', r', heq, hg', ho⟩)
  rw [hg] at hused
  cases hused

/-- A block spared is the same. -/
theorem sameBlock (hL : Laid A h gs) (hx : (o, n) ∈ usedSpans 0 gs)
    (hp : x.toNat = A.base + o + 16) (hs : Spares (Own A o n) h h') : SameBlock h h' x := by
  obtain ⟨l, g, r, rfl, -, rfl, rfl⟩ := mem_usedSpans_iff.mp hx
  rw [Nat.zero_add] at hp
  have hmem : (x - sizeofStructMem).toNat = A.base + Tiling.total l := Tidy.toNat_sub_header hp
  have hnext : h'.next (x - sizeofStructMem) = h.next (x - sizeofStructMem) := by
    refine Heap.next_congr fun i hi => hs.ram _ (.inl ?_)
    omega
  refine ⟨by rw [Heap.blockEnd, hnext, hs.heapPtr]; rfl, fun a hxa ha => hs.ram a (.inr ?_)⟩
  rw [Heap.blockEnd, (hL.fields_at hmem).1, hL.heapPtr] at ha
  omega

/-- The end of a block. -/
theorem end_place (hL : Laid A h (l ++ g :: r)) :
    Tiling.total l + g.size ∈ seams 0 (l ++ g :: r) ∨ Tiling.total l + g.size = A.len := by
  have hend := hL.end_eq
  cases r with
  | nil => exact .inr (by rw [hend, total_nil, Nat.add_zero])
  | cons g' r => exact .inl (by simp)

/-- A block in use has nothing in another block. -/
theorem own_out (hL : Laid A h (l ++ g :: r)) (hx : (o, n) ∈ usedSpans 0 (l ++ g :: r))
    (hne : Tiling.total l ≠ o) :
    ∀ a ∈ Own A o n, a < A.base + Tiling.total l ∨ A.base + (Tiling.total l + g.size) ≤ a := by
  obtain ⟨hn, hseam, hap⟩ := hL.span hx
  have hdist : o + n ≤ Tiling.total l ∨ Tiling.total l + g.size ≤ o := by
    have hap₁ := hap (Tiling.total l) (.inl (by simp))
    have hap₂ := hL.apart (.inl hseam)
    omega
  rintro a (ha | ha)
  · exact hdist.imp (by omega) (by omega)
  · exact hdist.imp (by omega) (by omega)

/-- The link from a block to the one in front of it is not among what a block in use has, even where
it is its own. -/
theorem own_prev (hL : Laid A h gs) (hx : (o, n) ∈ usedSpans 0 gs) {b : ℕ}
    (hb : b ∈ seams 0 gs ∨ b = A.len) :
    ∀ a ∈ Own A o n, a < A.base + b + 8 ∨ A.base + b + 12 ≤ a := by
  obtain ⟨hn, -, hap⟩ := hL.span hx
  have hapart := hap b hb
  rintro a (ha | ha)
  · omega
  · omega

/-! ### Free blocks combined -/

/-- Two neighbours that become one leave the other blocks. -/
theorem spares_combine (hL : Laid A h (l ++ g :: g' :: r))
    (hmem : mem.toNat = A.base + Tiling.total l)
    (hnmem : nmem.toNat = A.base + (Tiling.total l + g.size))
    (hx : (o, n) ∈ usedSpans 0 (l ++ g :: g' :: r)) (hne : Tiling.total l ≠ o) :
    Spares (Own A o n) h (h.combine mem nmem) := by
  have hg : 16 ≤ g.size := hL.le_size g (by simp)
  -- `lfree` plays no part
  wlog hlf : h.lfree ≠ nmem generalizing h
  · have hfirst : mem ≠ nmem := fun heq => by
      rw [heq] at hmem
      omega
    rw [combine_lfree (not_not.mp hlf) hfirst]
    have hs := this (hL.setLfree hmem (.inl (by simp))) hfirst
    exact ⟨hs.heapPtr, hs.ram⟩
  have hL' : Laid A h ((l ++ [g]) ++ g' :: r) := by rwa [List.append_assoc]
  have hend := hL'.end_eq
  have hnext := (hL'.fields_at (show nmem.toNat = A.base + Tiling.total (l ++ [g]) by
    rw [hnmem]
    simp)).1
  have hbehind := hL'.end_place
  simp only [total_append, total_cons, total_nil, Nat.add_zero] at hend hnext hbehind
  rw [← List.append_cons] at hbehind
  -- the link of the second block is not the one written
  have hkeep : (h.setNext mem (h.next nmem)).next nmem = h.next nmem :=
    wordAt_storeWord_of_disjoint (by omega)
  have htail : (h.entry (h.next nmem)).toNat =
      A.base + (Tiling.total l + g.size + g'.size) := by
    rw [hL.toNat_entry (by omega), hnext]
  have heq : h.combine mem nmem =
      (h.setNext mem (h.next nmem)).setPrev (h.entry (h.next nmem)) (mem - h.heapPtr) := by
    rw [← hkeep]
    simp only [Heap.combine, if_neg hlf, hkeep]
    rfl
  have e₁ : Spares (Own A o n) h (h.setNext mem (h.next nmem)) :=
    .setNext fun a ha => (hL.own_out hx hne a ha).imp (by omega) (by omega)
  rw [heq]
  exact e₁.trans (.setPrev fun a ha => htail ▸ hL.own_prev hx hbehind a ha)

/-- **A free block and its free neighbours become one**, and the blocks in use are left. -/
theorem spares_plugHoles (hL : Laid A h (l ++ g :: r)) (hmem : mem.toNat = A.base + Tiling.total l)
    (hg : g.used = false) (hr : Separate r) (hx : (o, n) ∈ usedSpans 0 (l ++ g :: r)) :
    Spares (Own A o n) h (h.plugHoles mem) := by
  have hfwd : Spares (Own A o n) h (h.plugForward mem) := by
    rcases hL.plugForward_cases hmem with ⟨heq, -⟩ | ⟨g', r, rfl, hg', hnmem, heq⟩
    · rw [heq]
      exact .refl ..
    · rw [heq]
      exact hL.spares_combine hmem hnmem hx (hL.span_ne hg hx)
  obtain ⟨g₁, r₁, hL₁, hg₁, -, -, -, -, hspans⟩ := hL.plugForward hmem hg hr
  have hx₁ : (o, n) ∈ usedSpans 0 (l ++ g₁ :: r₁) := by
    rwa [usedSpans_append, Nat.zero_add, hspans, ← Nat.zero_add (Tiling.total l),
      ← usedSpans_append]
  refine hfwd.trans ?_
  change Spares (Own A o n) _ ((h.plugForward mem).plugBackward mem)
  rcases hL₁.plugBackward_cases hmem with ⟨heq, -⟩ | ⟨l, b, rfl, hb, hpmem, heq⟩
  · rw [heq]
    exact .refl ..
  · have hL' : Laid A (h.plugForward mem) (l ++ b :: g₁ :: r₁) := by simpa using hL₁
    have hmem' : mem.toNat = A.base + (Tiling.total l + b.size) := by
      rw [hmem, total_append, total_cons, total_nil, Nat.add_zero]
    have hx' : (o, n) ∈ usedSpans 0 (l ++ b :: g₁ :: r₁) := by simpa using hx₁
    rw [heq]
    exact hL'.spares_combine hpmem hmem' hx' (hL'.span_ne hb hx')

/-- What is behind a block that is inserted. -/
theorem toNat_tail {k m : ℕ} {u : Bool} {ptr2 : UInt32} (hL : Laid A h (l ++ ⟨k + m, u⟩ :: r))
    (hk : 16 ≤ k) (hptr : ptr.toNat = Tiling.total l) (hptr2 : ptr2.toNat = Tiling.total l + k) :
    (h.entry ((h.insert ptr ptr2).next (h.entry ptr2))).toNat =
      A.base + (Tiling.total l + (k + m)) := by
  have hend := hL.end_eq
  simp only at hend
  have hmem2 : (h.entry ptr2).toNat = (h.insert ptr ptr2).heapPtr.toNat + (Tiling.total l + k) := by
    rw [hL.toNat_entry (by omega), hptr2]
    exact congrArg (· + _) hL.heapPtr.symm
  have hnext : ((h.insert ptr ptr2).next (h.entry ptr2)).toNat = Tiling.total l + (k + m) := by
    rw [Heap.toNat_next hmem2, (hL.header_inserted hk hptr hptr2).2.1, Nat.add_assoc]
  rw [hL.toNat_entry (by omega), hnext]

/-! ### rt_malloc -/

/-- A free block taken into use. -/
theorem spares_take (hL : Laid A h (l ++ g :: r)) (hg : g.used = false)
    (hptr : ptr.toNat = Tiling.total l) (hfit : size.toNat + 16 ≤ g.size)
    (hx : (o, n) ∈ usedSpans 0 (l ++ g :: r)) : Spares (Own A o n) h (h.take ptr size) := by
  have hram := A.inRam
  have hend := hL.end_eq
  have hmem := hL.toNat_entry_at hptr
  have hout := hL.own_out hx (hL.span_ne hg hx)
  unfold Heap.take
  simp only [hL.splits_iff hptr hfit]
  split
  · rename_i hcut
    have hdata := hL.toNat_data hptr
    have hptr2 : (ptr + sizeofStructMem + size).toNat = Tiling.total l + (size.toNat + 16) := by
      rw [toNat_add_of_lt] <;> rw [hdata] <;> omega
    have hmem2 : (h.entry (ptr + sizeofStructMem + size)).toNat =
        A.base + (Tiling.total l + (size.toNat + 16)) := by
      rw [hL.toNat_entry (by omega), hptr2]
    let h₁ := h.insert ptr (ptr + sizeofStructMem + size)
    let h₂ := h₁.setUsed (h.entry ptr) 1
    let h₃ := h₂.linkBack (ptr + sizeofStructMem + size)
    let h₄ := h₃.count (size + sizeofStructMem)
    have htail : (h₂.entry (h₂.next (h₂.entry (ptr + sizeofStructMem + size)))).toNat =
        A.base + (Tiling.total l + g.size) := by
      have hsame : h₂.next (h.entry (ptr + sizeofStructMem + size)) =
          h₁.next (h.entry (ptr + sizeofStructMem + size)) :=
        wordAt_storeHalf_of_disjoint (by omega)
      obtain ⟨m, hm⟩ := Nat.exists_eq_add_of_le hfit
      obtain ⟨_, u⟩ := g
      obtain rfl := hm
      change (h.entry (h₂.next (h.entry (ptr + sizeofStructMem + size)))).toNat = _
      rw [hsame]
      exact hL.toNat_tail (by omega) hptr hptr2
    have e₁ : Spares (Own A o n) h h₁ := .insert
      (fun a ha => (hout a ha).imp (by omega) (by omega))
      fun a ha => (hout a ha).imp (by omega) (by omega)
    have e₂ : Spares (Own A o n) h₁ h₂ :=
      .setUsed fun a ha => (hout a ha).imp (by omega) (by omega)
    have e₃ : Spares (Own A o n) h₂ h₃ :=
      .linkBack fun a ha => htail ▸ hL.own_prev hx hL.end_place a ha
    have e₄ : Spares (Own A o n) h₃ h₄ := .count ..
    have e₅ : Spares (Own A o n) h₄ (h₄.setMagic (h.entry ptr) heapMagic) :=
      .setMagic fun a ha => (hout a ha).imp (by omega) (by omega)
    exact e₁.trans (e₂.trans (e₃.trans (e₄.trans e₅)))
  · let h₁ := h.setUsed (h.entry ptr) 1
    let h₂ := h₁.count (h₁.next (h.entry ptr) - (h.entry ptr - h₁.heapPtr))
    have e₁ : Spares (Own A o n) h h₁ :=
      .setUsed fun a ha => (hout a ha).imp (by omega) (by omega)
    have e₂ : Spares (Own A o n) h₁ h₂ := .count ..
    have e₃ : Spares (Own A o n) h₂ (h₂.setMagic (h.entry ptr) heapMagic) :=
      .setMagic fun a ha => (hout a ha).imp (by omega) (by omega)
    exact e₁.trans (e₂.trans e₃)

end Laid

/-- A pointer that holds, and the block it is to. -/
theorem Holds.exists_span (hx : Holds A gs x) :
    ∃ o n, (o, n) ∈ usedSpans 0 gs ∧ x.toNat = A.base + o + 16 := by
  obtain ⟨l, g, r, rfl, hg, hxt⟩ := hx.exists_block
  exact ⟨_, _, mem_usedSpans_iff.mpr ⟨l, g, r, rfl, hg, (Nat.zero_add _).symm, rfl⟩, hxt⟩

namespace Tidy

/-- **`rt_malloc`** leaves the blocks in use. -/
theorem sameBlock_malloc (hS : Tidy A h gs) {fuel : ℕ} (heq : h.malloc fuel size = some (p, h'))
    (hx : Holds A gs x) : SameBlock h h' x := by
  obtain ⟨-, rfl⟩ | ⟨found, hsearch, hgrant⟩ := Heap.malloc_eq_some heq
  · exact .refl ..
  · obtain ⟨hfound, hfits⟩ := hS.of_search hsearch
    obtain ⟨l, g, r, rfl, hptr, hg, hfit⟩ := hS.toLaid.block_of_fits hfound hfits
    obtain ⟨o, n, hspan, hxt⟩ := hx.exists_span
    have hs := hS.toLaid.spares_take hg hptr hfit hspan
    obtain ⟨-, rfl | ⟨-, lfree, -, rfl⟩⟩ := Heap.grant_cases hgrant
    · exact hS.toLaid.sameBlock hspan hxt hs
    · exact hS.toLaid.sameBlock hspan hxt ⟨hs.heapPtr, hs.ram⟩

/-! ### rt_free -/

/-- The block given back is no longer one of those in use; the others are as they were. -/
theorem mem_usedSpans_released (hne : total l ≠ o)
    (hx : (o, n) ∈ usedSpans 0 (l ++ g :: r)) :
    (o, n) ∈ usedSpans 0 (l ++ { g with used := false } :: r) := by
  simp only [usedSpans_append, usedSpans_cons, List.mem_append, Nat.zero_add] at hx ⊢
  refine hx.imp_right (Or.imp_left fun hx => ?_)
  split at hx
  · exact absurd (Prod.mk.injEq .. ▸ List.mem_singleton.mp hx).1.symm hne
  · cases hx

/-- **`rt_free`** leaves the other blocks. -/
theorem sameBlock_free (hS : Tidy A h gs) (hp : Holds A gs p) (hx : Holds A gs x) (hne : x ≠ p) :
    SameBlock h (h.free p) x := by
  have hfree : h.free p = h.release (p - sizeofStructMem) := by
    rw [Heap.free, if_neg hp.ne_zero, if_neg (hS.in_arena hp)]
  obtain ⟨l, g, r, rfl, hg, hpt⟩ := hp.exists_block
  obtain ⟨o, n, hspan, hxt⟩ := hx.exists_span
  have hmem := toNat_sub_header hpt
  have hother : total l ≠ o := by
    rintro rfl
    exact hne (UInt32.toNat_inj.mp (hxt.trans hpt.symm))
  have hsize : 16 ≤ g.size := hS.le_size g (by simp)
  have hout := hS.toLaid.own_out hspan hother
  generalize p - sizeofStructMem = mem at *
  let h₁ := (h.setUsed mem 0).setMagic mem 0
  let h₂ := if mem < h₁.lfree then { h₁ with lfree := mem } else h₁
  let h₃ : Heap := { h₂ with usedMem := h₂.usedMem - (h₂.next mem - (mem - h₂.heapPtr)) }
  have hL₂ : Laid A h₂ (l ++ { g with used := false } :: r) := hS.toLaid.unuse hmem
  have hL₃ : Laid A h₃ (l ++ { g with used := false } :: r) := hL₂.setStats _ _
  have e₁ : Spares (Own A o n) h (h.setUsed mem 0) :=
    .setUsed fun a ha => (hout a ha).imp (by omega) (by omega)
  have e₂ : Spares (Own A o n) (h.setUsed mem 0) h₁ :=
    .setMagic fun a ha => (hout a ha).imp (by omega) (by omega)
  have e₃ : Spares (Own A o n) h₁ h₃ := by
    unfold h₃ h₂
    split <;> exact ⟨rfl, fun _ _ => rfl⟩
  have e₄ : Spares (Own A o n) h₃ (h₃.plugHoles mem) :=
    hL₃.spares_plugHoles hmem rfl hS.separate.right.tail
      (mem_usedSpans_released hother hspan)
  rw [hfree]
  exact hS.toLaid.sameBlock hspan hxt (e₁.trans (e₂.trans (e₃.trans e₄)))

/-! ### rt_realloc -/

/-- What is written into the data of a block is written to no other. -/
theorem sameBlock_setRam (hS : Tidy A h (l ++ g :: r)) (hq : q.toNat = A.base + total l + 16)
    (hx : Holds A (l ++ g :: r) x) (hne : x ≠ q) {ram : ℕ → UInt8}
    (hram : ∀ a, a < A.base + total l + 16 ∨ A.base + total l + g.size ≤ a → ram a = h.ram a) :
    SameBlock h { h with ram := ram } x := by
  obtain ⟨o, n, hspan, hxt⟩ := hx.exists_span
  have hother : total l ≠ o := by
    rintro rfl
    exact hne (UInt32.toNat_inj.mp (hxt.trans hq.symm))
  refine hS.toLaid.sameBlock hspan hxt ⟨rfl, fun a ha => hram a ?_⟩
  exact (hS.toLaid.own_out hspan hother a ha).imp (by omega) (by omega)

/-- **The cut of `rt_realloc`** leaves the other blocks, and of its own the data in front of it; there
the block ends. -/
theorem shrink_keeps (hS : Tidy A h (l ++ g :: r)) (hg : g.used = true) (hptr : ptr.toNat = total l)
    (hpt : p.toNat = A.base + total l + 16) {newsize : UInt32} (hsize : size.toNat + 16 = g.size)
    (h8 : 8 ∣ newsize.toNat) (hlt : newsize.toNat + 28 < size.toNat) :
    (∀ x, Holds A (l ++ g :: r) x → x ≠ p → SameBlock h (h.shrink ptr size newsize) x) ∧
      (h.shrink ptr size newsize).blockEnd p = p.toNat + newsize.toNat ∧
      ∀ i < newsize.toNat, (h.shrink ptr size newsize).ram (p.toNat + i) = h.ram (p.toNat + i) := by
  have hram := A.inRam
  have hend := hS.end_eq
  have hmem := hS.toNat_entry_at hptr
  obtain ⟨m, hm⟩ := Nat.exists_eq_add_of_le (show newsize.toNat + 16 ≤ g.size by omega)
  obtain ⟨_, u⟩ := g
  obtain rfl : u = true := hg
  obtain rfl := hm
  simp only at hend hsize
  obtain ⟨hptr2, hmem2, hL₂⟩ := hS.toLaid.before_cut (size - newsize) (by omega) hptr
  let h₁ : Heap := { h with usedMem := h.usedMem - (size - newsize) }
  let h₂ := h₁.setMagic (h.entry (ptr + sizeofStructMem + newsize)) heapMagic
  let h₃ := h₂.insert ptr (ptr + sizeofStructMem + newsize)
  let h₄ := h₃.linkBack (ptr + sizeofStructMem + newsize)
  have htail := hL₂.toNat_tail (by omega) hptr hptr2
  have hL₄ : Laid A h₄ (l ++ ⟨newsize.toNat + 16, true⟩ :: ⟨m, false⟩ :: r) :=
    hL₂.cut (by omega) (by omega) (by omega) hptr hptr2
  -- the writes of the cut itself
  have hcut : ∀ {S : Set ℕ}, (∀ a ∈ S, a < A.base + total l + 4 ∨ A.base + total l + 8 ≤ a) →
      (∀ a ∈ S, a < A.base + (total l + (newsize.toNat + 16)) ∨
        A.base + (total l + (newsize.toNat + 16)) + 12 ≤ a) →
      (∀ a ∈ S, a < A.base + (total l + (newsize.toNat + 16 + m)) + 8 ∨
        A.base + (total l + (newsize.toNat + 16 + m)) + 12 ≤ a) → Spares S h h₄ := by
    intro S hfirst hsecond hbehind
    have e₁ : Spares S h h₁ := ⟨rfl, fun _ _ => rfl⟩
    have e₂ : Spares S h₁ h₂ := .setMagic fun a ha => by
      have := hsecond a ha
      omega
    have e₃ : Spares S h₂ h₃ := .insert
      (fun a ha => by
        have := hfirst a ha
        change a < (h.entry ptr).toNat + 4 ∨ (h.entry ptr).toNat + 8 ≤ a
        omega)
      fun a ha => by
        have := hsecond a ha
        change a < (h.entry _).toNat ∨ (h.entry _).toNat + 12 ≤ a
        omega
    have e₄ : Spares S h₃ h₄ := .linkBack fun a ha => by
      have := hbehind a ha
      change a < (h₂.entry (h₃.next (h₂.entry _))).toNat + 8 ∨
        (h₂.entry (h₃.next (h₂.entry _))).toNat + 12 ≤ a
      rw [htail]
      omega
    exact e₁.trans (e₂.trans (e₃.trans e₄))
  -- and those of `plug_holes` behind it
  have hplug : ∀ {o n}, (o, n) ∈ usedSpans 0 (l ++ ⟨newsize.toNat + 16, true⟩ :: ⟨m, false⟩ :: r) →
      Spares (Own A o n) h₄ (h.shrink ptr size newsize) := by
    intro o n hx
    have hL₄' := hL₄
    rw [List.append_cons] at hL₄' hx
    refine hL₄'.spares_plugHoles ?_ rfl hS.separate.right.tail hx
    exact hmem2.trans (by simp)
  have hspan₄ : (total l, newsize.toNat + 16) ∈
      usedSpans 0 (l ++ ⟨newsize.toNat + 16, true⟩ :: ⟨m, false⟩ :: r) := by simp
  have hsame := hL₄.sameBlock hspan₄ hpt (hplug hspan₄)
  have hend₄ : h₄.blockEnd p = p.toNat + newsize.toNat := by
    have hnext := (hL₄.fields_at (toNat_sub_header hpt)).1
    simp only at hnext
    rw [Heap.blockEnd, hnext, hL₄.heapPtr, hpt]
    omega
  refine ⟨fun x hx hne => ?_, hsame.blockEnd.trans hend₄, fun i hi => ?_⟩
  · obtain ⟨o, n, hspan, hxt⟩ := hx.exists_span
    have hother : total l ≠ o := by
      rintro rfl
      exact hne (UInt32.toNat_inj.mp (hxt.trans hpt.symm))
    have hspan' : (o, n) ∈
        usedSpans 0 (l ++ ⟨newsize.toNat + 16, true⟩ :: ⟨m, false⟩ :: r) := by
      simp only [usedSpans_append, usedSpans_cons, List.mem_append, Nat.zero_add, if_true,
        List.mem_singleton, Prod.mk.injEq] at hspan ⊢
      rcases hspan with hx | hx | hx
      · exact .inl hx
      · exact absurd hx.1.symm hother
      · exact .inr (.inr (.inr (by rwa [← Nat.add_assoc] at hx)))
    have hout := hS.toLaid.own_out hspan hother
    simp only at hout
    refine hS.toLaid.sameBlock hspan hxt (.trans ?_ (hplug hspan'))
    exact hcut (fun a ha => (hout a ha).imp (by omega) (by omega))
      (fun a ha => (hout a ha).imp (by omega) (by omega))
      (hS.toLaid.own_prev hspan hS.toLaid.end_place)
  · have hbyte : Spares {p.toNat + i} h h₄ := hcut
      (fun a ha => by rw [Set.mem_singleton_iff.mp ha]; omega)
      (fun a ha => by rw [Set.mem_singleton_iff.mp ha]; omega)
      fun a ha => by rw [Set.mem_singleton_iff.mp ha]; omega
    rw [hsame.data _ (Nat.le_add_right ..) (by rw [hend₄]; omega), hbyte.ram _ rfl]

end Tidy

end Start01
