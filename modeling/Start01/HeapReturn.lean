/-
Start01/HeapReturn.lean

What a pointer that is returned points to.  `rt_malloc`, `rt_realloc` and `rt_calloc` round
sizes up, and multiply them, modulo 2^32, and what comes out may be less than what was
asked for (`heap_sizes_iff`).

`rt_realloc` keeps what was in the block, and in all others.  A block that is to become
shorter, but by too little for a header, is replaced by another one, and where there is
none the call fails (`realloc_ok_iff`).
-/
import Start01.HeapFrame

namespace Start01

open Tiling Run

/-! ### Sizes -/

namespace Heap

/-- The bytes from `p` to the next header. -/
def room (h : Heap) (p : UInt32) : ℕ := h.blockEnd p - p.toNat

/-- A pointer that `rt_malloc(n)` returns has `n` bytes. -/
def MallocGives (h : Heap) (n : UInt32) : Prop :=
  ∀ (fuel : ℕ) (q : UInt32) (h' : Heap), h.malloc fuel n = some (q, h') → q ≠ 0 →
    n.toNat ≤ h'.room q

/-- And one that `rt_realloc(p, n)` returns. -/
def ReallocGives (h : Heap) (p n : UInt32) : Prop :=
  ∀ (fuel : ℕ) (q : UInt32) (h' : Heap), h.realloc fuel p n = some (q, h') → q ≠ 0 →
    n.toNat ≤ h'.room q

/-- And one that `rt_calloc(count, size)` returns has all the bytes of the array, each zero. -/
def CallocGives (h : Heap) (count size : UInt32) : Prop :=
  ∀ (fuel : ℕ) (q : UInt32) (h' : Heap), h.calloc fuel count size = some (q, h') → q ≠ 0 →
    count.toNat * size.toNat ≤ h'.room q ∧
      ∀ i < count.toNat * size.toNat, h'.ram (q.toNat + i) = 0

end Heap

variable {A : Arena} {h h' : Heap} {l r gs : List Block} {g : Block} {p q n size count : UInt32}
  {fuel : ℕ}

theorem Laid.room_eq (hL : Laid A h (l ++ g :: r)) (hp : p.toNat = A.base + Tiling.total l + 16) :
    h.room p + 16 = g.size := by
  have hg : 16 ≤ g.size := hL.le_size g (by simp)
  rw [Heap.room, Heap.blockEnd, (hL.fields_at (Tidy.toNat_sub_header hp)).1, hL.heapPtr]
  omega

/-- No block has room for more than there is memory. -/
theorem Laid.room_lt (hL : Laid A h (l ++ g :: r)) (hp : p.toNat = A.base + Tiling.total l + 16) :
    h.room p < 0xFFFFFFF0 := by
  have hroom := hL.room_eq hp
  have hend := hL.end_eq
  have hram := A.inRam
  omega

/-- Rounded up, a size is not less, unless it comes out as 0. -/
theorem le_toNat_rtAlign (hn : n.toNat ≤ 0xFFFFFFF8) : n.toNat ≤ (rtAlign n).toNat := by
  rw [toNat_rtAlign]
  omega

theorem rtAlign_eq_zero (hn : 0xFFFFFFF8 < n.toNat) : rtAlign n = 0 := by
  have hlt := n.toNat_lt
  apply UInt32.toNat_inj.mp
  show (rtAlign n).toNat = 0
  rw [toNat_rtAlign]
  omega

/-- A size rounded up stays as it is. -/
theorem rtAlign_rtAlign (n : UInt32) : rtAlign (rtAlign n) = rtAlign n := by
  have hlt := n.toNat_lt
  apply UInt32.toNat_inj.mp
  rw [toNat_rtAlign, toNat_rtAlign]
  omega

/-! ### When `rt_malloc` returns a pointer -/

namespace Tidy

/-- Where the search sees a block, `rt_malloc` returns a pointer, with fuel. -/
theorem exists_malloc (hS : Tidy A h gs) (hno : ¬ h.Barren n) :
    ∃ fuel q h', h.malloc fuel n = some (q, h') ∧ q ≠ 0 := by
  -- a block that is seen has room for the least data
  have hlen : 32 ≤ A.len := by
    obtain ⟨k, -, hfits⟩ : ∃ k, h.hop k < h.memSizeAligned - Heap.granule n ∧
        h.fits (h.hop k) (Heap.granule n) = true := by
      by_contra hall
      refine hno (.inr (.inr fun k hk => Bool.eq_false_iff.mpr fun hfits => hall ⟨k, hk, hfits⟩))
    rcases hS.toLaid.hop_place k with hseam | hend
    · obtain ⟨l, g, r, rfl, hat⟩ := mem_seams_iff.mp hseam
      rw [Nat.zero_add] at hat
      have hfit := ((hS.toLaid.fits_iff hat).mp hfits).2
      have h16 := (toNat_granule n).1
      have hend := hS.toLaid.end_eq
      omega
    · rw [hS.toLaid.fits_end hend] at hfits
      cases hfits
  have hsome : (h.malloc (A.len + 1) n).isSome = true :=
    hS.malloc_isSome hlen (Nat.lt_succ_self A.len)
  obtain ⟨⟨q, h'⟩, heq⟩ := Option.isSome_iff_exists.mp hsome
  exact ⟨_, q, h', heq, fun hq => hno ((hS.malloc_null_iff_refuses heq).mp hq).barren⟩

end Tidy

theorem Granted.le_room {k : ℕ} (hgr : Granted A gs h' q k) : k ≤ h'.room q := by
  obtain ⟨-, l, g, r, hT, hroom, hq, -⟩ := hgr
  have heq := hT.toLaid.room_eq hq
  omega

theorem Granted.room_lt {k : ℕ} (hgr : Granted A gs h' q k) : h'.room q < 0xFFFFFFF0 := by
  obtain ⟨-, l, g, r, hT, -, hq, -⟩ := hgr
  exact hT.toLaid.room_lt hq

/-- **`rt_malloc`** gives what is asked for, unless the size is rounded up to 0 and there is a block. -/
theorem Tidy.mallocGives_iff (hS : Tidy A h gs) (n : UInt32) :
    h.MallocGives n ↔ n.toNat ≤ 0xFFFFFFF8 ∨ h.Barren n := by
  constructor
  · intro hgives
    rw [or_iff_not_imp_right]
    intro hno
    obtain ⟨fuel, q, h', heq, hq⟩ := hS.exists_malloc hno
    have hgr := hS.granted heq hq
    exact (hgives fuel q h' heq hq).trans (by have := hgr.room_lt; omega)
  · rintro (hn | hno) fuel q h' heq hq
    · have hgr := hS.granted heq hq
      exact (le_toNat_rtAlign hn).trans hgr.le_room
    · exact absurd (Heap.malloc_of_barren hno heq).1 hq

/-! ### rt_calloc -/

/-- The zeros are written behind the pointer. -/
theorem Heap.room_zero (h : Heap) {k : ℕ} (hq : q.toNat = k + 16) (n : UInt32) :
    (h.zero q n).room q = h.room q := by
  have hmem : (q - sizeofStructMem).toNat = k := by
    rw [toNat_sub_of_le] <;> rw [toNat_sizeofStructMem] <;> omega
  have hbelow : ∀ a < q.toNat, (h.zero q n).ram a = h.ram a := fun a ha => if_neg (by omega)
  have hnext : (h.zero q n).next (q - sizeofStructMem) = h.next (q - sizeofStructMem) :=
    Heap.next_congr fun i hi => hbelow _ (by omega)
  have hptr : (h.zero q n).heapPtr = h.heapPtr := rfl
  rw [Heap.room, Heap.blockEnd, hnext, hptr, Heap.room, Heap.blockEnd]

/-- **`rt_calloc`** gives what is asked for, unless the product is not what it is modulo 2^32, or is
rounded up to 0, and there is a block. -/
theorem Tidy.callocGives_iff (hS : Tidy A h gs) (count size : UInt32) :
    h.CallocGives count size ↔
      count.toNat * size.toNat ≤ 0xFFFFFFF8 ∨ h.Barren (count * size) := by
  constructor
  · intro hgives
    rw [or_iff_not_imp_right]
    intro hno
    obtain ⟨fuel, q, h', heq, hq⟩ := hS.exists_malloc hno
    have hgr := hS.granted heq hq
    have hcalloc : h.calloc fuel count size = some (q, h'.zero q (count * size)) := by
      rw [Heap.calloc, heq]
      exact congrArg some (if_pos hq)
    have hle := (hgives fuel q _ hcalloc hq).1
    have hlt := hgr.room_lt
    obtain ⟨-, l, g, r, -, -, hpt, -⟩ := hgr
    rw [Heap.room_zero h' hpt] at hle
    omega
  · intro hor fuel q h₂ heq hq
    obtain ⟨⟨q', h₁⟩, hmalloc, hres⟩ := Option.map_eq_some_iff.mp heq
    simp only at hres
    split at hres
    · rename_i hne
      obtain ⟨rfl, rfl⟩ := Prod.mk.injEq .. ▸ hres
      have hP := hor.resolve_right fun hno => hq (Heap.malloc_of_barren hno hmalloc).1
      have hprod : (count * size).toNat = count.toNat * size.toNat := by
        rw [UInt32.toNat_mul, Nat.mod_eq_of_lt (by omega)]
      have hgr := hS.granted hmalloc hq
      have hroom := (le_toNat_rtAlign (n := count * size) (by omega)).trans hgr.le_room
      obtain ⟨-, l, g, r, -, -, hpt, -⟩ := hgr
      rw [Heap.room_zero h₁ hpt, ← hprod]
      exact ⟨hroom, fun i hi => if_pos (by omega)⟩
    · rename_i hnull
      obtain ⟨rfl, -⟩ := Prod.mk.injEq .. ▸ hres
      exact absurd hq hnull

/-! ### rt_realloc -/

/-- The room of a block that is the same. -/
theorem SameBlock.room_eq (hsame : SameBlock h h' q) : h'.room q = h.room q :=
  congrArg (· - q.toNat) hsame.blockEnd

/-- The block that takes the place of another one, once the old one is freed: it has room for `k`
bytes, and what is copied there is what the old block held. -/
theorem Tidy.moved_keeps (hS : Tidy A h gs) (hp : Holds A gs p)
    (heq : h.malloc fuel size = some (q, h')) (hq : q ≠ 0) {k : UInt32} (hk : k.toNat ≤ h.room p)
    (hk' : k.toNat ≤ (rtAlign size).toNat) :
    (rtAlign size).toNat ≤ ((h'.copy q p k).free p).room q ∧
      (∀ i < k.toNat, ((h'.copy q p k).free p).ram (q.toNat + i) = h.ram (p.toNat + i)) ∧
      ∀ x, Holds A gs x → x ≠ p → SameBlock h ((h'.copy q p k).free p) x := by
  have hgr := hS.granted heq hq
  have hroom := hgr.le_room
  obtain ⟨hfresh, l, g, r, hT, hsize, hqt, hholds⟩ := hgr
  have hother : ∀ x, Holds A gs x → x ≠ q := fun x hx hxq => hfresh (hxq ▸ hx)
  have hcopy : Tidy A (h'.copy q p k) (l ++ g :: r) := hT.copy hqt (by omega)
  have hpheld := (hholds p).mpr (.inr hp)
  -- the copy leaves where the block ends
  have hend : (h'.copy q p k).room q = h'.room q := by
    have h₁ := hcopy.toLaid.room_eq hqt
    have h₂ := hT.toLaid.room_eq hqt
    omega
  have hfree := hcopy.sameBlock_free hpheld ((hholds q).mpr (.inl rfl)) (hother p hp).symm
  refine ⟨by rw [hfree.room_eq, hend]; exact hroom, fun i hi => ?_, fun x hx hxp => ?_⟩
  · have hblock : q.toNat + i < (h'.copy q p k).blockEnd q := by
      have hlt : i < (h'.copy q p k).room q := by omega
      rw [Heap.room] at hlt
      omega
    rw [hfree.data _ (Nat.le_add_right ..) hblock]
    have hread : (h'.copy q p k).ram (q.toNat + i) = h'.ram (p.toNat + i) := by
      refine (if_pos (by omega)).trans ?_
      rw [Nat.add_sub_cancel_left]
    have hlt : i < h.room p := hi.trans_le hk
    rw [Heap.room] at hlt
    rw [hread, (hS.sameBlock_malloc heq hp).data _ (Nat.le_add_right ..) (by omega)]
  · have e₁ := hS.sameBlock_malloc heq hx
    have e₂ : SameBlock h' (h'.copy q p k) x :=
      hT.sameBlock_setRam hqt ((hholds x).mpr (.inr hx)) (hother x hx) fun a ha =>
        if_neg (by omega)
    exact e₁.trans (e₂.trans (hcopy.sameBlock_free hpheld ((hholds x).mpr (.inr hx)) hxp))

/-- The sizes of `rt_realloc`. -/
theorem Tidy.le_room_realloc (hS : Tidy A h gs) (hn : n.toNat ≤ 0xFFFFFFF8)
    (hp : p = 0 ∨ Holds A gs p) (heq : h.realloc fuel p n = some (q, h')) (hq : q ≠ 0) :
    n.toNat ≤ h'.room q := by
  have hle := le_toNat_rtAlign hn
  rcases hp with rfl | hheld
  · rcases Heap.realloc_null heq with ⟨hnull, -⟩ | hmalloc
    · exact absurd hnull hq
    · have hgr := hS.granted hmalloc hq
      rw [rtAlign_rtAlign] at hgr
      exact hle.trans hgr.le_room
  · obtain ⟨l, g, r, rfl, hg, hpt⟩ := hheld.exists_block
    have hroom := hS.toLaid.room_eq hpt
    have halign := toNat_rtAlign n
    obtain ⟨ptr, size, hptr, hlen, ⟨-, rfl, -⟩ | ⟨hsame, rfl, rfl⟩ | ⟨hlt, -, rfl, rfl⟩ |
      ⟨-, -, h₁, hmalloc, ⟨rfl, -⟩ | ⟨hne, k, hk, rfl⟩⟩⟩ := hS.realloc_held hg hpt heq
    · exact absurd rfl hq
    · rw [hsame] at hlen
      omega
    · obtain ⟨-, hend, -⟩ := hS.shrink_keeps hg hptr hpt hlen (by omega) hlt
      rw [Heap.room, hend, Nat.add_sub_cancel_left]
      exact hle
    · exact absurd rfl hq
    · have hmoved := (hS.moved_keeps hheld hmalloc hne (k := k) (by omega)
        (by rw [rtAlign_rtAlign]; omega)).1
      rw [rtAlign_rtAlign] at hmoved
      exact hle.trans hmoved

/-- **`rt_realloc`** gives what is asked for, unless the size is rounded up to 0 and the block is left
in use: as it is, where it has no bytes at all, or cut down to none. -/
theorem Tidy.reallocGives_iff (hS : Tidy A h gs) (hp : p = 0 ∨ Holds A gs p) (n : UInt32) :
    h.ReallocGives p n ↔
      n.toNat ≤ 0xFFFFFFF8 ∨ p = 0 ∨ 0 < h.room p ∧ h.room p ≤ 28 := by
  by_cases hn : n.toNat ≤ 0xFFFFFFF8
  · exact iff_of_true (fun fuel q h' heq hq => hS.le_room_realloc hn hp heq hq) (.inl hn)
  have hzero : rtAlign n = 0 := rtAlign_eq_zero (Nat.not_le.mp hn)
  rw [or_iff_right hn]
  rcases hp with rfl | hheld
  · refine iff_of_true (fun fuel q h' heq hq => absurd ?_ hq) (.inl rfl)
    rcases Heap.realloc_null heq with ⟨hnull, -⟩ | hmalloc
    · exact hnull
    · exact (Heap.malloc_of_barren (.inl hzero) hmalloc).1
  rw [or_iff_right hheld.ne_zero]
  obtain ⟨l, g, r, rfl, hg, hpt⟩ := hheld.exists_block
  have hroom := hS.toLaid.room_eq hpt
  have hlt := hS.toLaid.room_lt hpt
  have h0 : (rtAlign n).toNat = 0 := congrArg UInt32.toNat hzero
  constructor
  · intro hgives
    by_contra hnot
    -- then the call returns the pointer it was given
    have hlen : 32 ≤ A.len := by
      have hend := hS.toLaid.end_eq
      have hin := hS.inside (total l) (hS.toLaid.mem_usedSeams_iff.mpr hg)
      cases r with
      | nil =>
        rw [total_nil] at hend
        omega
      | cons b r =>
        have hb : 16 ≤ b.size := hS.le_size b (by simp)
        rw [total_cons] at hend
        omega
    have hsome : (h.realloc (A.len + 1) p n).isSome = true :=
      hS.realloc_isSome hlen (Nat.lt_succ_self A.len)
    obtain ⟨⟨q, h'⟩, heq⟩ := Option.isSome_iff_exists.mp hsome
    have hres := hgives _ q h' heq
    obtain ⟨ptr, size, hptr, hsize, ⟨hmost, -⟩ | ⟨hsame, rfl, rfl⟩ | ⟨hcut, -, rfl, rfl⟩ |
      ⟨hne, hle, -⟩⟩ := hS.realloc_held hg hpt heq
    · rw [hzero, UInt32.lt_iff_toNat_lt] at hmost
      exact absurd hmost (Nat.not_lt_zero _)
    · have := hres hheld.ne_zero
      omega
    · obtain ⟨-, hend, -⟩ := hS.shrink_keeps hg hptr hpt hsize (by omega) hcut
      have hle := hres hheld.ne_zero
      rw [Heap.room, hend, h0] at hle
      omega
    · have hs : size.toNat ≠ 0 := fun hs => hne (UInt32.toNat_inj.mp (hs.trans h0.symm))
      omega
  · rintro ⟨hpos, hle⟩ fuel q h' heq hq
    exfalso
    obtain ⟨ptr, size, hptr, hsize, ⟨-, rfl, -⟩ | ⟨hsame, -, -⟩ | ⟨hcut, -, -, -⟩ |
      ⟨-, -, h₁, hmalloc, -⟩⟩ := hS.realloc_held hg hpt heq
    · exact hq rfl
    · rw [hsame] at hsize
      omega
    · omega
    · exact hq (Heap.malloc_of_barren (.inl hzero) hmalloc).1

/-- **Sizes.**  In every heap a program can come to, a pointer that is returned has what was asked
for behind it in just the cases below. -/
theorem heap_sizes_iff {fuel : ℕ} {ram : ℕ → UInt8} {beginAddr endAddr : UInt32}
    (hacc : Heap.accepts beginAddr endAddr = true) {ops : List HeapOp} {s : HeapSys}
    (hsafe : Meets (HeapSys.step fuel) HeapSys.CallocSafe
      (HeapSys.boot ram beginAddr endAddr) ops)
    (hrun : exec (HeapSys.step fuel) (HeapSys.boot ram beginAddr endAddr) ops = some s) :
    (∀ n, s.heap.MallocGives n ↔ n.toNat ≤ 0xFFFFFFF8 ∨ s.heap.Barren n) ∧
    (∀ p n, p = 0 ∨ p ∈ s.live → (s.heap.ReallocGives p n ↔
      n.toNat ≤ 0xFFFFFFF8 ∨ p = 0 ∨ 0 < s.heap.room p ∧ s.heap.room p ≤ 28)) ∧
    ∀ count size, s.heap.CallocGives count size ↔
      count.toNat * size.toNat ≤ 0xFFFFFFF8 ∨ s.heap.Barren (count * size) := by
  obtain ⟨A, hboot⟩ := HeapSys.boot_good ram hacc
  obtain ⟨gs, hT, hlive⟩ := exec_invariant (fun _ _ _ hs hC heq => HeapSys.Good.step hs hC heq) hboot
    hsafe hrun
  exact ⟨hT.mallocGives_iff, fun p n hp => hT.reallocGives_iff (hp.imp_right (hlive p).mp) n,
    hT.callocGives_iff⟩

/-- After a call each. -/
theorem heap_sizes_iff_run : ∃ s, exec (HeapSys.step 9)
    (HeapSys.boot (fun _ => 0xA5) 0x20001000 0x2000C000) [.malloc 100, .calloc 4 4] = some s ∧
      s.heap.MallocGives 60 ∧ s.heap.ReallocGives 0x20001010 40 ∧ s.heap.CallocGives 3 20 := by
  have hrun : (exec (HeapSys.step 9) (HeapSys.boot (fun _ => 0xA5) 0x20001000 0x2000C000)
      [.malloc 100, .calloc 4 4]).map (fun s => decide (0x20001010 ∈ s.live)) = some true := by
    decide +kernel
  obtain ⟨s, hs, hlive⟩ := Option.map_eq_some_iff.mp hrun
  have hsafe : Meets (HeapSys.step 9) HeapSys.CallocSafe
      (HeapSys.boot (fun _ => 0xA5) 0x20001000 0x2000C000) [.malloc 100, .calloc 4 4] :=
    ⟨trivial, fun _ _ => ⟨.inl (by decide), fun _ _ => trivial⟩⟩
  obtain ⟨hmalloc, hrealloc, hcalloc⟩ := heap_sizes_iff (by decide) hsafe hs
  refine ⟨s, hs, (hmalloc 60).mpr (.inl (by decide)), ?_, (hcalloc 3 20).mpr (.inl (by decide))⟩
  exact (hrealloc 0x20001010 40 (.inr (of_decide_eq_true hlive))).mpr (.inl (by decide))

/-- 2^32 - 1 bytes are 16 of `rt_malloc` and none of `rt_realloc`, and an array of 2^30 + 1 words
gets the block for one. -/
theorem heap_sizes_short :
    ¬ (HeapSys.boot (fun _ => 0xA5) 0x20001000 0x2000C000).heap.MallocGives 0xFFFFFFFF ∧
    (∃ s, exec (HeapSys.step 9) (HeapSys.boot (fun _ => 0xA5) 0x20001000 0x2000C000)
        [.malloc 100] = some s ∧ 0x20001010 ∈ s.live ∧
      ¬ s.heap.ReallocGives 0x20001010 0xFFFFFFFF) ∧
    ¬ (HeapSys.boot (fun _ => 0xA5) 0x20001000 0x2000C000).heap.CallocGives 0x40000001 4 := by
  refine ⟨fun hgives => ?_, ?_, fun hgives => ?_⟩
  · have hrun : ((HeapSys.boot (fun _ => 0xA5) 0x20001000 0x2000C000).heap.malloc 9 0xFFFFFFFF).map
        (fun r => (r.1, r.2.room r.1)) = some (0x20001010, 16) := by
      decide +kernel
    obtain ⟨⟨q, h'⟩, hmalloc, heq⟩ := Option.map_eq_some_iff.mp hrun
    obtain ⟨rfl, hroom⟩ := Prod.mk.injEq .. ▸ heq
    have hle := hgives 9 _ h' hmalloc (by decide)
    rw [hroom] at hle
    exact absurd hle (by decide)
  · have hrun : (exec (HeapSys.step 9) (HeapSys.boot (fun _ => 0xA5) 0x20001000 0x2000C000)
        [.malloc 100]).map (fun s => (decide (0x20001010 ∈ s.live),
          (s.heap.realloc 9 0x20001010 0xFFFFFFFF).map fun r => (r.1, r.2.room r.1))) =
        some (true, some (0x20001010, 0)) := by
      decide +kernel
    obtain ⟨s, hs, heq⟩ := Option.map_eq_some_iff.mp hrun
    obtain ⟨hlive, hrealloc⟩ := Prod.mk.injEq .. ▸ heq
    refine ⟨s, hs, of_decide_eq_true hlive, fun hgives => ?_⟩
    obtain ⟨⟨q, h'⟩, hrealloc, heq⟩ := Option.map_eq_some_iff.mp hrealloc
    obtain ⟨rfl, hroom⟩ := Prod.mk.injEq .. ▸ heq
    have hle := hgives 9 _ h' hrealloc (by decide)
    rw [hroom] at hle
    exact absurd hle (by decide)
  · have hrun : ((HeapSys.boot (fun _ => 0xA5) 0x20001000 0x2000C000).heap.calloc 9 0x40000001 4).map
        (fun r => (r.1, r.2.room r.1)) = some (0x20001010, 16) := by
      decide +kernel
    obtain ⟨⟨q, h'⟩, hcalloc, heq⟩ := Option.map_eq_some_iff.mp hrun
    obtain ⟨rfl, hroom⟩ := Prod.mk.injEq .. ▸ heq
    have hle := (hgives 9 _ h' hcalloc (by decide)).1
    rw [hroom] at hle
    exact absurd hle (by decide)

/-! ### Contents -/

/-- `rt_realloc(p, n)` has returned `q`. -/
structure ReallocKeeps (s : HeapSys) (p n q : UInt32) (h' : Heap) : Prop where
  /-- The block at `q`, or still that at `p`, is in use, and the others are… -/
  live : (s.swap p (q, h')).WellFormed
  /-- …what they were. -/
  others : ∀ x ∈ s.live, x ≠ p → SameBlock s.heap h' x
  /-- What `p` held is at `q`, as far as it fits… -/
  contents : q ≠ 0 → ∀ i < min (s.heap.room p) n.toNat,
    h'.ram (q.toNat + i) = s.heap.ram (p.toNat + i)
  /-- …and still at `p` if the call has failed. -/
  failed : q = 0 → SameBlock s.heap h' p
  /-- A block can always be made shorter. -/
  shrinks : 0 < n → n.toNat ≤ s.heap.room p → q ≠ 0

/-- Whatever `rt_realloc(p, n)` returns. -/
def ReallocOk (s : HeapSys) (p n : UInt32) : Prop :=
  ∀ (fuel : ℕ) (q : UInt32) (h' : Heap), s.heap.realloc fuel p n = some (q, h') →
    ReallocKeeps s p n q h'

section Contents

variable {s : HeapSys}

/-- The contents, whatever the size. -/
theorem Tidy.realloc_keeps (hS : Tidy A h gs) (hn : n.toNat ≤ 0xFFFFFFF8) (hheld : Holds A gs p)
    (heq : h.realloc fuel p n = some (q, h')) :
    (∀ x, Holds A gs x → x ≠ p → SameBlock h h' x) ∧
      (q ≠ 0 → ∀ i < min (h.room p) n.toNat, h'.ram (q.toNat + i) = h.ram (p.toNat + i)) ∧
      (q = 0 → SameBlock h h' p) := by
  have hle := le_toNat_rtAlign hn
  obtain ⟨l, g, r, rfl, hg, hpt⟩ := hheld.exists_block
  have hroom := hS.toLaid.room_eq hpt
  have halign := toNat_rtAlign n
  obtain ⟨ptr, size, hptr, hlen, ⟨-, rfl, rfl⟩ | ⟨-, rfl, rfl⟩ | ⟨hlt, -, rfl, rfl⟩ |
    ⟨-, -, h₁, hmalloc, ⟨rfl, rfl⟩ | ⟨hne, k, hk, rfl⟩⟩⟩ := hS.realloc_held hg hpt heq
  · exact ⟨fun x _ _ => .refl .., fun hq => absurd rfl hq, fun _ => .refl ..⟩
  · exact ⟨fun x _ _ => .refl .., fun _ _ _ => rfl, fun _ => .refl ..⟩
  · obtain ⟨hothers, -, hdata⟩ := hS.shrink_keeps hg hptr hpt hlen (by omega) hlt
    exact ⟨hothers, fun _ i hi => hdata i (by omega), fun hq => absurd hq hheld.ne_zero⟩
  · obtain rfl := hS.unchanged_of_malloc hmalloc rfl
    exact ⟨fun x _ _ => .refl .., fun hq => absurd rfl hq, fun _ => .refl ..⟩
  · obtain ⟨-, hdata, hothers⟩ := hS.moved_keeps hheld hmalloc hne (k := k) (by omega)
      (by rw [rtAlign_rtAlign]; omega)
    exact ⟨hothers, fun _ i hi => hdata i (by omega), fun hq => absurd hq hne⟩

/-- When a block that is to become shorter is not: it is not cut, and `rt_malloc` has nothing. -/
theorem Tidy.realloc_null_iff (hS : Tidy A h gs) (hheld : Holds A gs p) (hpos : 0 < n)
    (hfit : n.toNat ≤ h.room p) :
    (∀ fuel q h', h.realloc fuel p n = some (q, h') → q ≠ 0) ↔
      h.room p = (rtAlign n).toNat ∨ (rtAlign n).toNat + 28 < h.room p ∨
        ¬ h.Refuses (rtAlign n) := by
  obtain ⟨l, g, r, rfl, hg, hpt⟩ := hheld.exists_block
  have hroom := hS.toLaid.room_eq hpt
  have hlt := hS.toLaid.room_lt hpt
  have halign := toNat_rtAlign n
  have h8 := (hS.sizes g (by simp)).2
  have hend := hS.toLaid.end_eq
  have hsize := hS.size
  rw [UInt32.lt_iff_toNat_lt] at hpos
  have hzero : (0 : UInt32).toNat = 0 := rfl
  constructor
  · intro hnever
    by_contra hnot
    simp only [not_or, not_not] at hnot
    obtain ⟨hne, hle, hno⟩ := hnot
    have hlen : 32 ≤ A.len := by
      rcases hno with hz | hmost | ⟨hmin, -⟩
      · rw [hz] at halign
        omega
      · rw [rtAlign_rtAlign, UInt32.lt_iff_toNat_lt] at hmost
        omega
      · rw [UInt32.le_iff_toNat_le, toNat_minSizeAligned] at hmin
        omega
    have hsome : (h.realloc (A.len + 1) p n).isSome = true :=
      hS.realloc_isSome hlen (Nat.lt_succ_self A.len)
    obtain ⟨⟨q, h'⟩, heq⟩ := Option.isSome_iff_exists.mp hsome
    have hq := hnever _ q h' heq
    obtain ⟨ptr, size, -, hs, ⟨-, rfl, -⟩ | ⟨hsame, -, -⟩ | ⟨hcut, -, -, -⟩ |
      ⟨-, -, h₁, hmalloc, -⟩⟩ := hS.realloc_held hg hpt heq
    · exact hq rfl
    · rw [hsame] at hs
      omega
    · omega
    · exact hq ((hS.malloc_null_iff_refuses hmalloc).mpr hno)
  · intro hor fuel q h' heq hq
    subst hq
    obtain ⟨ptr, size, -, hs, ⟨hmost, -⟩ | ⟨-, hnull, -⟩ | ⟨-, -, hnull, -⟩ |
      ⟨hne, hle, h₁, hmalloc, -⟩⟩ := hS.realloc_held hg hpt heq
    · rw [UInt32.lt_iff_toNat_lt] at hmost
      omega
    · exact hheld.ne_zero hnull.symm
    · exact hheld.ne_zero hnull.symm
    · rcases hor with hsame | hcut | hno
      · exact hne (UInt32.toNat_inj.mp (by omega))
      · omega
      · exact hno ((hS.malloc_null_iff_refuses hmalloc).mp rfl)

end Contents

/-- **`rt_realloc`.**  In every heap a program can come to it keeps what the blocks hold, and a
block is made shorter, unless it is by too little to cut it and `rt_malloc` has nothing. -/
theorem realloc_ok_iff {fuel : ℕ} {ram : ℕ → UInt8} {beginAddr endAddr : UInt32}
    (hacc : Heap.accepts beginAddr endAddr = true) {ops : List HeapOp} {s : HeapSys}
    (hsafe : Meets (HeapSys.step fuel) HeapSys.CallocSafe
      (HeapSys.boot ram beginAddr endAddr) ops)
    (hrun : exec (HeapSys.step fuel) (HeapSys.boot ram beginAddr endAddr) ops = some s)
    {p n : UInt32} (hp : p ∈ s.live) (hn : n.toNat ≤ 0xFFFFFFF8) :
    ReallocOk s p n ↔ (0 < n → n.toNat ≤ s.heap.room p →
      s.heap.room p = (rtAlign n).toNat ∨ (rtAlign n).toNat + 28 < s.heap.room p ∨
        ¬ s.heap.Refuses (rtAlign n)) := by
  obtain ⟨A, hboot⟩ := HeapSys.boot_good ram hacc
  obtain ⟨gs, hT, hlive⟩ := exec_invariant (fun _ _ _ hs hC heq => HeapSys.Good.step hs hC heq) hboot
    hsafe hrun
  have hheld := (hlive p).mp hp
  constructor
  · intro hok hpos hfit
    exact (hT.realloc_null_iff hheld hpos hfit).mp fun f q h' heq =>
      (hok f q h' heq).shrinks hpos hfit
  · intro hcond f q h' heq
    obtain ⟨hothers, hcontents, hfailed⟩ := hT.realloc_keeps hn hheld heq
    exact {
      live := (HeapSys.good_swap hT hlive (hT.realloc (.inr hheld) heq)).wellFormed
      others := fun x hx hne => hothers x ((hlive x).mp hx) hne
      contents := hcontents
      failed := hfailed
      shrinks := fun hpos hfit =>
        (hT.realloc_null_iff hheld hpos hfit).mpr (hcond hpos hfit) f q h' heq }

/-- A block of 104 bytes cut down to 40. -/
theorem realloc_ok_iff_cut : ∃ s, exec (HeapSys.step 9)
    (HeapSys.boot (fun _ => 0xA5) 0x20001000 0x2000C000) [.malloc 100, .malloc 0xAF60] = some s ∧
      ReallocOk s 0x20001010 40 := by
  have hrun : (exec (HeapSys.step 9) (HeapSys.boot (fun _ => 0xA5) 0x20001000 0x2000C000)
      [.malloc 100, .malloc 0xAF60]).map (fun s =>
        (decide (0x20001010 ∈ s.live), s.heap.room 0x20001010)) = some (true, 104) := by
    decide +kernel
  obtain ⟨s, hs, heq⟩ := Option.map_eq_some_iff.mp hrun
  obtain ⟨hlive, hroom⟩ := Prod.mk.injEq .. ▸ heq
  refine ⟨s, hs, (realloc_ok_iff (by decide) ?_ hs (of_decide_eq_true hlive) (by decide)).mpr
    fun _ _ => .inr (.inl ?_)⟩
  · exact ⟨trivial, fun _ _ => ⟨trivial, fun _ _ => trivial⟩⟩
  · rw [hroom]
    decide

/-- In a full heap the same block cannot be made 96 bytes long. -/
theorem realloc_not_ok : ∃ s, exec (HeapSys.step 9)
    (HeapSys.boot (fun _ => 0xA5) 0x20001000 0x2000C000) [.malloc 100, .malloc 0xAF60] = some s ∧
      0x20001010 ∈ s.live ∧ s.heap.room 0x20001010 = 104 ∧ ¬ ReallocOk s 0x20001010 96 := by
  have hrun : (exec (HeapSys.step 9) (HeapSys.boot (fun _ => 0xA5) 0x20001000 0x2000C000)
      [.malloc 100, .malloc 0xAF60]).map (fun s => (decide (0x20001010 ∈ s.live),
        s.heap.room 0x20001010, (s.heap.realloc 9 0x20001010 96).map Prod.fst)) =
      some (true, 104, some 0) := by
    decide +kernel
  obtain ⟨s, hs, heq⟩ := Option.map_eq_some_iff.mp hrun
  simp only [Prod.mk.injEq] at heq
  obtain ⟨hlive, hroom, hnull⟩ := heq
  refine ⟨s, hs, of_decide_eq_true hlive, hroom, fun hok => ?_⟩
  obtain ⟨⟨q, h'⟩, hrealloc, rfl⟩ := Option.map_eq_some_iff.mp hnull
  refine (hok 9 0 h' hrealloc).shrinks (by decide) ?_ rfl
  rw [hroom]
  decide

end Start01
