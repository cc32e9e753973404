/-
Start01/HeapLow.lean

Whether `rt_malloc` finds the memory that is free.  Its search starts at `lfree` and ends
in front of offset `mem_size_aligned - size`.

`Low A h gs` says that no free block lies below `lfree`.  `rt_malloc` and `rt_free` keep it.
`rt_realloc` does not: the part it cuts off a block may lie below `lfree`, which moves to
it only where a free block behind is taken in (`KeepsLow`).

The bound is one too small: a block at `mem_size_aligned - size` itself is the last one, with
room for exactly `size` bytes, and is not looked at (`OnlyLast`).

What `rt_malloc` does with a request depends on the offsets that it looks at: it returns NULL
exactly where none of them fits (`Refuses`).
-/
import Start01.HeapRun

namespace Start01

open Tiling Run

/-! ### Free blocks -/

namespace Heap

/-- The offsets of the blocks, from the start of the heap on; behind the last one, that of
the end. -/
def blockAt (h : Heap) : ℕ → UInt32
  | 0 => 0
  | k + 1 => h.next (h.entry (h.blockAt k))

/-- The block at an offset is not in use. -/
def FreeAt (h : Heap) (ptr : UInt32) : Prop := h.used (h.entry ptr) = 0

/-- `lfree` is at or below every free block. -/
def LowFree (h : Heap) : Prop := ∀ k, h.FreeAt (h.blockAt k) → h.lfree ≤ h.entry (h.blockAt k)

/-- A size rounded up to 8, and to the 16-byte minimum. -/
def rounded (n : UInt32) : ℕ := max 16 ((n.toNat + 7) / 8 * 8)

/-- The `k`-th block is free and has room for `n` bytes. -/
def HasRoom (h : Heap) (n : UInt32) (k : ℕ) : Prop :=
  h.FreeAt (h.blockAt k) ∧
    rounded n ≤ (h.next (h.entry (h.blockAt k)) - (h.blockAt k + sizeofStructMem)).toNat

/-- There is a free block with room, but only at the offset where the search ends. -/
def OnlyLast (h : Heap) (n : UInt32) : Prop :=
  (∃ k, h.HasRoom n k) ∧
    ∀ k, h.HasRoom n k → (h.blockAt k).toNat + rounded n = h.memSizeAligned.toNat

end Heap

/-- No free block lies below `lfree`. -/
def Low (A : Arena) (h : Heap) (gs : List Block) : Prop :=
  ∀ o ∈ seams 0 gs, o ∉ usedSeams 0 gs → h.lfree.toNat ≤ A.base + o

variable {A : Arena} {h h' : Heap} {l r gs gs' : List Block} {g b : Block}
  {mem p ptr size : UInt32}

namespace Laid

/-- The layout of an arena is one list of blocks. -/
theorem unique (hL : Laid A h gs) (hL' : Laid A h gs') : gs = gs' := by
  refine hL.tiles.unique hL'.tiles (hL.total.trans hL'.total.symm) (fun g hg => ?_) fun g hg => ?_
  · exact (show 0 < 16 by decide).trans_le (hL.le_size g hg)
  · exact (show 0 < 16 by decide).trans_le (hL'.le_size g hg)

/-- A free block in the list. -/
theorem low_at (hL : Laid A h (l ++ g :: r)) (hlow : Low A h (l ++ g :: r)) (hg : g.used = false) :
    h.lfree.toNat ≤ A.base + Tiling.total l := by
  refine hlow _ (by simp) ?_
  rw [hL.mem_usedSeams_iff, hg]
  decide

/-- Following `next` from the start, one comes to blocks, and to the end. -/
theorem blockAt_place (hL : Laid A h gs) (k : ℕ) :
    (h.blockAt k).toNat ∈ seams 0 gs ∨ (h.blockAt k).toNat = A.len := by
  induction k with
  | zero =>
    have htotal := hL.total
    cases gs with
    | nil => exact .inr htotal
    | cons g gs => exact .inl (by simp [Heap.blockAt])
  | succ k ih => exact hL.next_place ih (hL.toNat_entry (hL.place_le ih))

/-- And to every block. -/
theorem exists_blockAt : ∀ {l r : List Block}, Laid A h (l ++ r) →
    ∃ k, (h.blockAt k).toNat = Tiling.total l := by
  intro l
  induction l using List.reverseRecOn with
  | nil => exact fun _ => ⟨0, rfl⟩
  | append_singleton l b ih =>
    intro r hL
    rw [List.append_assoc] at hL
    obtain ⟨k, hk⟩ := ih hL
    refine ⟨k + 1, ((hL.fields_at (hL.toNat_entry_at hk)).1).trans ?_⟩
    simp

/-- What is free, read through the headers. -/
theorem freeAt_iff (hL : Laid A h (l ++ g :: r)) (hptr : ptr.toNat = Tiling.total l) :
    h.FreeAt ptr ↔ g.used = false := (hL.fields_at (hL.toNat_entry_at hptr)).2.2

theorem not_freeAt_end (hL : Laid A h gs) (hptr : ptr.toNat = A.len) : ¬ h.FreeAt ptr := by
  have hmem : (h.entry ptr).toNat = h.heapPtr.toNat + A.len := by
    rw [hL.toNat_entry hptr.le, hptr, hL.heapPtr]
  rw [Heap.FreeAt, Heap.used_eq_zero_iff hmem, hL.stop.1]
  decide

/-- A free block that one comes to is one of the list. -/
theorem exists_of_freeAt (hL : Laid A h gs) {k : ℕ} (hfree : h.FreeAt (h.blockAt k)) :
    ∃ l g r, gs = l ++ g :: r ∧ g.used = false ∧ (h.blockAt k).toNat = Tiling.total l := by
  rcases hL.blockAt_place k with hseam | hk
  · obtain ⟨l, g, r, rfl, hk⟩ := mem_seams_iff.mp hseam
    rw [Nat.zero_add] at hk
    exact ⟨l, g, r, rfl, (hL.freeAt_iff hk).mp hfree, hk⟩
  · exact absurd hfree (hL.not_freeAt_end hk)

/-- `Low` is what the headers say. -/
theorem lowFree (hL : Laid A h gs) (hlow : Low A h gs) : h.LowFree := by
  intro k hfree
  obtain ⟨l, g, r, rfl, hg, hk⟩ := hL.exists_of_freeAt hfree
  rw [UInt32.le_iff_toNat_le, hL.toNat_entry_at hk]
  exact hL.low_at hlow hg

/-! ### The search -/

/-- Where the search ends without a block, a free block with room stands where it ends. -/
theorem search_none : ∀ {fuel : ℕ} {l l' : List Block} {ptr : UInt32},
    Laid A h (l ++ (l' ++ g :: r)) → ptr.toNat = Tiling.total l →
    h.search size fuel ptr = some none → g.used = false → size.toNat + 16 ≤ g.size →
      Tiling.total l + Tiling.total l' + size.toNat = h.memSizeAligned.toNat := by
  intro fuel
  induction fuel with
  | zero => exact fun _ _ hs => by cases hs
  | succ fuel ih =>
    intro l l' ptr hL hptr hs hg hroom
    have hlen := hL.size
    have hend : A.len = Tiling.total l + Tiling.total l' + g.size + Tiling.total r := by
      rw [← hL.total]
      simp [Nat.add_assoc]
    rw [Heap.search] at hs
    split at hs
    · split at hs
      · cases Option.some.inj hs
      · rename_i hfits
        cases l' with
        | nil => exact absurd ((hL.fits_iff hptr).mpr ⟨hg, hroom⟩) hfits
        | cons b l' =>
          have hnext := (hL.fields_at (hL.toNat_entry_at hptr)).1
          rw [List.cons_append, List.append_cons] at hL
          have hrest := ih hL (hnext.trans (by simp)) hs hg hroom
          simp only [total_append, total_cons, total_nil] at hrest ⊢
          omega
    · rename_i hstop
      have hsub : (h.memSizeAligned - size).toNat = h.memSizeAligned.toNat - size.toNat :=
        toNat_sub_of_le (by omega)
      rw [UInt32.lt_iff_toNat_lt, hsub] at hstop
      omega

/-- The loop that moves `lfree` passes no free block. -/
theorem low_skipUsed : ∀ {fuel : ℕ} {l r : List Block} {mem lfree : UInt32},
    Laid A h (l ++ r) → mem.toNat = A.base + Tiling.total l →
    (∀ o ∈ seams 0 (l ++ r), o ∉ usedSeams 0 (l ++ r) → Tiling.total l ≤ o) →
    h.skipUsed fuel mem = some lfree → Low A { h with lfree := lfree } (l ++ r) := by
  intro fuel
  induction fuel with
  | zero => exact fun _ _ _ hs => by cases hs
  | succ fuel ih =>
    intro l r mem lfree hL hmem hlow hs
    rw [Heap.skipUsed] at hs
    split at hs
    · rename_i hused
      cases r with
      | nil =>
        have hend := hL.total
        rw [List.append_nil] at hend
        exact absurd (UInt32.toNat_inj.mp (by rw [hmem, hL.heapEnd, hend])) hused.2
      | cons g r =>
        have hend := hL.end_eq
        have hnext := (hL.fields_at hmem).1
        have hg : g.used = true := by
          rw [← Bool.not_eq_false]
          exact fun hg => hused.1 ((hL.fields_at hmem).2.2.mpr hg)
        -- the free blocks are behind the one that is passed
        have hbehind : ∀ o ∈ seams 0 (l ++ g :: r), o ∉ usedSeams 0 (l ++ g :: r) →
            Tiling.total (l ++ [g]) ≤ o := fun o ho hnot => by
          have hle := hlow o ho hnot
          rw [total_append, total_cons, total_nil, Nat.add_zero]
          rcases hL.apart (.inl ho) with hlt | rfl | hge
          · omega
          · exact absurd (hL.mem_usedSeams_iff.mpr hg) hnot
          · exact hge
        rw [List.append_cons] at hL hbehind ⊢
        refine ih hL ?_ hbehind hs
        rw [hL.toNat_entry (by omega), hnext]
        simp
    · obtain rfl := Option.some.inj hs
      intro o ho hnot
      have hle := hlow o ho hnot
      exact hmem.trans_le (Nat.add_le_add_left hle _)

end Laid

/-- What the search finds stands in front of the place where it ends. -/
theorem Heap.search_lt : ∀ {fuel : ℕ} {ptr found : UInt32},
    h.search size fuel ptr = some (some found) → found < h.memSizeAligned - size := by
  intro fuel
  induction fuel with
  | zero => exact fun hs => by cases hs
  | succ fuel ih =>
    intro ptr found hs
    rw [Heap.search] at hs
    split at hs
    · split at hs
      · obtain rfl := Option.some.inj (Option.some.inj hs)
        assumption
      · exact ih hs
    · cases Option.some.inj hs

/-! ### What keeps `lfree` low -/

@[simp]
theorem Heap.lfree_setMagic (h : Heap) (mem : UInt32) (v : UInt16) :
    (h.setMagic mem v).lfree = h.lfree := rfl

@[simp]
theorem Heap.lfree_count (h : Heap) (n : UInt32) : (h.count n).lfree = h.lfree := rfl

theorem Heap.lfree_take (h : Heap) (ptr size : UInt32) : (h.take ptr size).lfree = h.lfree := by
  unfold Heap.take
  simp only
  split
  · rw [lfree_setMagic, lfree_count, (sameArena_linkBack ..).lfree]
    rfl
  · rfl

/-- Where the blocks in front of a place stay, and `lfree` is not above the place, only the blocks
in front matter. -/
theorem low_of_front (hlow : Low A h (l ++ r)) {r' : List Block} (hle : h'.lfree.toNat ≤ h.lfree.toNat)
    (hat : h'.lfree.toNat ≤ A.base + total l)
    (hseams : ∀ o < total l, o ∈ seams 0 gs' → o ∈ seams 0 (l ++ r'))
    (hused : ∀ o < total l, o ∈ usedSeams 0 l → o ∈ usedSeams 0 gs') : Low A h' gs' := by
  intro o ho hnot
  rcases Nat.lt_or_ge o (total l) with hlt | hge
  · have hlt' : o < 0 + total l := by rwa [Nat.zero_add]
    refine hle.trans (hlow o ?_ fun hc => hnot (hused o hlt ?_))
    · exact (mem_seams_append_of_lt hlt').mpr ((mem_seams_append_of_lt hlt').mp (hseams o hlt ho))
    · exact (mem_usedSeams_append_of_lt hlt').mp hc
  · exact hat.trans (Nat.add_le_add_left hge _)

namespace Tidy

/-- The block that `rt_malloc` has found is taken into use. -/
theorem low_grant (hS : Tidy A h gs) (hlow : Low A h gs) {fuel : ℕ} {found : UInt32}
    (h16 : 16 ≤ size.toNat) (h8 : 8 ∣ size.toNat) (hfound : found.toNat ∈ seams 0 gs)
    (hfits : h.fits found size = true) (heq : h.grant fuel found size = some (p, h'))
    (hL' : Laid A h' gs') : Low A h' gs' := by
  obtain ⟨l, g, r, rfl, hptr, hg, hfit⟩ := hS.toLaid.block_of_fits hfound hfits
  have hmem := hS.toNat_entry_at hptr
  obtain ⟨b, r', hT, -, -, -⟩ := hS.take hg hptr h16 h8 hfit
  have hlf := h.lfree_take found size
  have htake : Low A (h.take found size) (l ++ b :: r') := by
    refine low_of_front hlow (congrArg UInt32.toNat hlf).le ?_ (fun o _ ho => ho) fun o hlt ho => ?_
    · rw [hlf]
      exact hS.toLaid.low_at hlow hg
    · exact (mem_usedSeams_append_of_lt (by rwa [Nat.zero_add])).mpr ho
  obtain ⟨rfl, rfl | ⟨hat, lfree, hskip, rfl⟩⟩ := Heap.grant_cases heq
  · exact hT.toLaid.unique hL' ▸ htake
  · obtain rfl := (hT.toLaid.skipUsed (.inl (by simp)) hmem hskip).unique hL'
    refine hT.toLaid.low_skipUsed hmem (fun o ho hnot => ?_) hskip
    have hle := htake o ho hnot
    rw [← hat, hmem] at hle
    omega

/-- **`rt_malloc` keeps `lfree` low.** -/
theorem low_malloc (hS : Tidy A h gs) (hlow : Low A h gs) {fuel : ℕ}
    (heq : h.malloc fuel size = some (p, h')) (hL' : Laid A h' gs') : Low A h' gs' := by
  rcases Heap.malloc_eq_some heq with ⟨-, rfl⟩ | ⟨found, hsearch, hgrant⟩
  · exact hS.toLaid.unique hL' ▸ hlow
  · obtain ⟨h16, h8, -⟩ := toNat_granule size
    obtain ⟨hfound, hfits⟩ := hS.of_search hsearch
    exact hS.low_grant hlow h16 h8 hfound hfits hgrant hL'

/-- **`rt_free` keeps it low**: it moves to the block that is freed. -/
theorem low_free (hS : Tidy A h gs) (hlow : Low A h gs) (hp : Holds A gs p)
    (hL' : Laid A (h.free p) gs') : Low A (h.free p) gs' := by
  have hfree : h.free p = h.release (p - sizeofStructMem) := by
    rw [Heap.free, if_neg hp.ne_zero, if_neg (hS.in_arena hp)]
  obtain ⟨l, g, r, rfl, hg, hpt⟩ := hp.exists_block
  have hmem := toNat_sub_header hpt
  obtain ⟨gs₁, hS₁, hused, hsub, hle, hat⟩ := hS.release hg hmem
  rw [hfree] at hL' ⊢
  obtain rfl := hS₁.toLaid.unique hL'
  refine low_of_front hlow hle (hat.trans hmem.le) (fun o _ ho => hsub ho) fun o _ ho => ?_
  rw [hused]
  exact List.mem_append_left _ ho

/-- `lfree` is not above a block, or behind it. -/
theorem lfree_place (hS : Tidy A h (l ++ g :: r)) :
    h.lfree.toNat ≤ A.base + total l ∨ A.base + (total l + g.size) ≤ h.lfree.toNat := by
  obtain ⟨o, hlf, ho⟩ := hS.lfree
  have hap := hS.toLaid.apart ho
  omega

/-- **`rt_realloc` that cuts a block** keeps it low where the block is not below `lfree`, or
a free block behind is taken in. -/
theorem low_shrink (hS : Tidy A h (l ++ g :: r)) (hlow : Low A h (l ++ g :: r)) (hg : g.used = true)
    (hptr : ptr.toNat = total l) {newsize : UInt32} (hsize : size.toNat + 16 = g.size)
    (h8 : 8 ∣ newsize.toNat) (hlt : newsize.toNat + 28 < size.toNat)
    (hkeep : h.lfree.toNat ≤ A.base + total l ∨ ∃ b ∈ r.head?, b.used = false)
    (hL' : Laid A (h.shrink ptr size newsize) gs') : Low A (h.shrink ptr size newsize) gs' := by
  obtain ⟨gs₁, hS₁, hused, hsub, hle, hfrom⟩ := hS.shrink hg hptr hsize h8 hlt
  obtain rfl := hS₁.toLaid.unique hL'
  have hnew : (h.shrink ptr size newsize).lfree.toNat ≤
      A.base + (total l + (newsize.toNat + 16)) := by
    rcases hS.lfree_place with hbelow | habove
    · omega
    · rcases hkeep with hbelow | ⟨b, hb, hbu⟩
      · omega
      · obtain ⟨r, rfl⟩ : ∃ r', r = b :: r' := List.head?_eq_some_iff.mp hb
        rw [List.append_cons] at hS hlow
        have hbehind := hS.toLaid.low_at hlow hbu
        simp only [total_append, total_cons, total_nil, Nat.add_zero] at hbehind
        exact hfrom b hb hbu (by omega)
  intro o ho hnot
  rw [hused] at hnot
  rcases hsub o ho with hold | rfl
  · exact hle.trans (hlow o hold hnot)
  · exact hnew

/-- **`rt_realloc`.** -/
theorem low_realloc (hS : Tidy A h gs) (hlow : Low A h gs) {fuel : ℕ} {q newsize : UInt32}
    (hp : p = 0 ∨ Holds A gs p) (heq : h.realloc fuel p newsize = some (q, h'))
    (hkeep : h.Cuts p newsize → h.lfree < p ∨ h.FreeAt (h.next (p - sizeofStructMem)))
    (hL' : Laid A h' gs') : Low A h' gs' := by
  have halign := toNat_rtAlign newsize
  rcases hS.realloc_cases hp heq with ⟨-, rfl⟩ | ⟨-, hmalloc⟩ |
    ⟨l, g, r, ptr, size, rfl, hg, hpt, hptr, hlen, hcut, hcuts, -, -, rfl⟩ |
    ⟨h₁, k, hnz, hmalloc, hne, hk, rfl⟩
  · exact hS.toLaid.unique hL' ▸ hlow
  · exact hS.low_malloc hlow hmalloc hL'
  · refine hS.low_shrink hlow hg hptr hlen (by omega) hcut ?_ hL'
    rcases hkeep hcuts with hbelow | hfree
    · have hplace := hS.lfree_place
      rw [UInt32.lt_iff_toNat_lt] at hbelow
      omega
    · have hend := hS.toLaid.end_eq
      have hnext := (hS.toLaid.fields_at (toNat_sub_header hpt)).1
      cases r with
      | nil => exact absurd hfree (hS.toLaid.not_freeAt_end (hnext.trans hend.symm))
      | cons b r =>
        rw [List.append_cons] at hS
        exact .inr ⟨b, rfl, (hS.toLaid.freeAt_iff (hnext.trans (by simp))).mp hfree⟩
  · -- the other block is got first, and then the old one freed
    obtain ⟨-, l, g, r, hT, hroom, hq, hholds⟩ := hS.granted hmalloc hne
    have hlow₁ := hS.low_malloc hlow hmalloc hT.toLaid
    have hcopy : Tidy A (h₁.copy q p k) (l ++ g :: r) := hT.copy hq (by omega)
    have hlow₂ : Low A (h₁.copy q p k) (l ++ g :: r) := hlow₁
    exact hcopy.low_free hlow₂ ((hholds p).mpr (.inr (hp.resolve_left hnz))) hL'

/-- `rt_calloc`, where the zeros stay in the block. -/
theorem low_calloc (hS : Tidy A h gs) (hlow : Low A h gs) {fuel : ℕ} {count : UInt32}
    (hsafe : (count * size).toNat ≤ 0xFFFFFFF8) (heq : h.calloc fuel count size = some (p, h'))
    (hL' : Laid A h' gs') : Low A h' gs' := by
  obtain ⟨⟨q, h₁⟩, hmalloc, hres⟩ := Option.map_eq_some_iff.mp heq
  simp only at hres
  split at hres
  · rename_i hne
    obtain ⟨rfl, rfl⟩ := Prod.mk.injEq .. ▸ hres
    obtain ⟨-, l, g, r, hT, hroom, hq, -⟩ := hS.granted hmalloc hne
    have hlow₁ := hS.low_malloc hlow hmalloc hT.toLaid
    rw [toNat_rtAlign] at hroom
    exact (hT.zero hq (by omega)).toLaid.unique hL' ▸ hlow₁
  · obtain ⟨rfl, rfl⟩ := Prod.mk.injEq .. ▸ hres
    exact hS.low_malloc hlow hmalloc hL'

/-! ### What NULL says -/

/-- A block with room, in the list. -/
theorem exists_of_hasRoom (hS : Tidy A h gs) {n : UInt32} {k : ℕ} (hk : h.HasRoom n k) :
    ∃ (l : List Block) (g : Block) (r : List Block), gs = l ++ g :: r ∧ g.used = false ∧
      (h.blockAt k).toNat = total l ∧ Heap.rounded n + 16 ≤ g.size := by
  obtain ⟨l, g, r, rfl, hg, hat⟩ := hS.toLaid.exists_of_freeAt hk.1
  have hgs : 16 ≤ g.size := hS.le_size g (by simp)
  have hroom := hk.2
  rw [hS.toLaid.toNat_room hat] at hroom
  exact ⟨l, g, r, rfl, hg, hat, by omega⟩

/-- There is none for a size that cannot be rounded up, and to any other `rt_malloc` gives the
size it is rounded up to. -/
theorem rounded_of_hasRoom (hS : Tidy A h gs) {n : UInt32} {k : ℕ} (hk : h.HasRoom n k) :
    Heap.rounded n = (Heap.granule n).toNat := by
  obtain ⟨l, g, r, rfl, -, -, hroom⟩ := hS.exists_of_hasRoom hk
  have hend := hS.toLaid.end_eq
  have hram := A.inRam
  have halign := toNat_rtAlign n
  unfold Heap.rounded at hroom ⊢
  rw [granule_toNat]
  omega

/-- Behind `lfree` the search comes to every free block. -/
theorem exists_cut_of_low (hS : Tidy A h (l ++ g :: r)) (hlow : Low A h (l ++ g :: r))
    (hg : g.used = false) : ∃ l₁ l₂, l = l₁ ++ l₂ ∧ (h.lfree - h.heapPtr).toNat = total l₁ := by
  obtain ⟨o, hlf, ho⟩ := hS.lfree
  have hle := hS.toLaid.low_at hlow hg
  have hat := hS.toLaid.toNat_sub_heapPtr hlf
  obtain ⟨l₁, r₁, heq, rfl⟩ := hS.toLaid.exists_cut ho
  rcases List.append_eq_append_iff.mp heq with ⟨c, hl₁, hr₁⟩ | ⟨c, hl, -⟩
  · cases c with
    | nil => exact ⟨l, [], by simp, by rw [hat, hl₁, List.append_nil]⟩
    | cons b c =>
      have hb : 16 ≤ b.size := hS.le_size b (by
        rw [hr₁]
        simp)
      rw [hlf, hl₁, total_append, total_cons] at hle
      omega
  · exact ⟨l₁, c, hl, hat⟩

/-- **NULL says that the heap is full**, unless only the last block has room. -/
theorem malloc_null_iff (hS : Tidy A h gs) (hlow : Low A h gs) {fuel : ℕ} {n : UInt32} (hn : 0 < n)
    (heq : h.malloc fuel n = some (p, h')) : (p = 0 → ∀ k, ¬ h.HasRoom n k) ↔ ¬ h.OnlyLast n := by
  obtain ⟨h16, h8, hle⟩ := toNat_granule n
  rcases Heap.malloc_cases heq with ⟨hwhy, rfl, -⟩ | ⟨found, hsearch, hgrant⟩
  · constructor
    · rintro hnone ⟨⟨k, hk⟩, -⟩
      exact hnone rfl k hk
    · intro hnot _ k hk
      refine hnot ⟨⟨k, hk⟩, fun k' hk' => ?_⟩
      have hsize := hS.rounded_of_hasRoom hk'
      obtain ⟨l, g, r, rfl, hg, hat, hroom⟩ := hS.exists_of_hasRoom hk'
      have hend := hS.toLaid.end_eq
      have hlen := hS.size
      rcases hwhy with (rfl | hmost) | hsearch
      · exact absurd hn (by decide)
      · rw [UInt32.lt_iff_toNat_lt] at hmost
        omega
      · obtain ⟨l₁, l₂, rfl, hstart⟩ := hS.exists_cut_of_low hlow hg
        rw [hat, total_append, hsize]
        rw [List.append_assoc] at hS
        exact hS.toLaid.search_none hstart hsearch hg (by omega)
  · obtain ⟨hfound, hfits⟩ := hS.of_search hsearch
    have hne := (hS.grant h16 h8 hfound hfits hgrant).ne_zero
    refine ⟨fun _ hlast => ?_, fun _ hnull => absurd hnull hne⟩
    obtain ⟨⟨k, hk⟩, hall⟩ := hlast
    have hsize := hS.rounded_of_hasRoom hk
    obtain ⟨l, g, r, rfl, hptr, hg, hfit⟩ := hS.toLaid.block_of_fits hfound hfits
    obtain ⟨k', hk'⟩ := hS.toLaid.exists_blockAt
    have hroom : h.HasRoom n k' := by
      refine ⟨(hS.toLaid.freeAt_iff hk').mpr hg, ?_⟩
      rw [hS.toLaid.toNat_room hk', hsize]
      omega
    have hat := hall k' hroom
    have hlt := Heap.search_lt hsearch
    rw [UInt32.lt_iff_toNat_lt, toNat_sub_of_le (by omega)] at hlt
    omega

end Tidy

/-! ### When `rt_malloc` has nothing -/

/-- `rt_malloc` has nothing for the request. -/
def Heap.Refuses (h : Heap) (size : UInt32) : Prop :=
  size = 0 ∨ h.memSizeAligned < rtAlign size ∨
    minSizeAligned ≤ h.memSizeAligned ∧ h.NoRoom (Heap.granule size)

/-- The search of `rt_malloc` for `n` bytes, if it is made, sees no block with room. -/
def Heap.Barren (h : Heap) (n : UInt32) : Prop :=
  n = 0 ∨ h.memSizeAligned < rtAlign n ∨ h.NoRoom (Heap.granule n)

variable {fuel : ℕ}

theorem Heap.Refuses.barren (hno : h.Refuses size) : h.Barren size :=
  hno.imp_right (Or.imp_right And.right)

theorem Heap.malloc_of_barren (hno : h.Barren size) (heq : h.malloc fuel size = some (p, h')) :
    p = 0 ∧ h' = h := by
  rcases Heap.malloc_cases heq with ⟨-, hnull⟩ | ⟨found, hsearch, hgrant⟩
  · exact hnull
  rcases hno with rfl | hmost | hno
  · obtain ⟨rfl, rfl⟩ := Prod.mk.injEq .. ▸ Option.some.inj heq
    exact ⟨rfl, rfl⟩
  · unfold Heap.malloc at heq
    rw [if_pos hmost] at heq
    split at heq <;> (obtain ⟨rfl, rfl⟩ := Prod.mk.injEq .. ▸ Option.some.inj heq; exact ⟨rfl, rfl⟩)
  · exact absurd hsearch (Heap.search_of_noRoom hno (k := 0))

/-- A search without a block goes on to an offset behind its bound. -/
theorem Heap.exists_stop : ∀ {fuel k : ℕ}, h.search size fuel (h.hop k) = some none →
    ∃ i ≥ k, ¬ h.hop i < h.memSizeAligned - size ∧
      ∀ j, k ≤ j → j < i → h.fits (h.hop j) size = false := by
  intro fuel
  induction fuel with
  | zero => exact fun hs => by cases hs
  | succ fuel ih =>
    intro k hs
    rw [Heap.search] at hs
    split at hs
    · split at hs
      · cases Option.some.inj hs
      · rename_i hfits
        obtain ⟨i, hi, hstop, hseen⟩ := ih (k := k + 1) hs
        refine ⟨i, by omega, hstop, fun j hkj hji => ?_⟩
        obtain rfl | hlt := Nat.eq_or_lt_of_le hkj
        · exact Bool.eq_false_iff.mpr hfits
        · exact hseen j hlt hji
    · rename_i hstop
      exact ⟨k, le_rfl, hstop, fun j hkj hjk => absurd hkj (Nat.not_le.mpr hjk)⟩

namespace Laid

/-- Where the search comes to. -/
theorem hop_place (hL : Laid A h gs) (k : ℕ) :
    (h.hop k).toNat ∈ seams 0 gs ∨ (h.hop k).toNat = A.len := by
  induction k with
  | zero =>
    obtain ⟨o, hlf, ho⟩ := hL.lfree
    have hat : (h.hop 0).toNat = o := hL.toNat_sub_heapPtr hlf
    rwa [hat]
  | succ k ih => exact hL.next_place ih (hL.toNat_entry (hL.place_le ih))

/-- It goes up. -/
theorem hop_mono (hL : Laid A h gs) {j k : ℕ} (hjk : j ≤ k) :
    (h.hop j).toNat ≤ (h.hop k).toNat := by
  refine Nat.le_induction le_rfl (fun k _ ih => ih.trans ?_) k hjk
  rcases hL.hop_place k with hseam | hend
  · obtain ⟨l, g, r, rfl, hat⟩ := mem_seams_iff.mp hseam
    rw [Nat.zero_add] at hat
    have hnext : (h.hop (k + 1)).toNat = Tiling.total l + g.size :=
      (hL.fields_at (hL.toNat_entry_at hat)).1
    omega
  · have hnext := hL.next_place (.inr hend) (hL.toNat_entry hend.le)
    have hstop : (h.hop (k + 1)).toNat = A.len := by
      refine (Heap.toNat_next (o := A.len) ?_).trans hL.stop.2
      rw [hL.toNat_entry hend.le, hend, hL.heapPtr]
    omega

/-- A search without a block has seen all that it would come to. -/
theorem noRoom_of_search (hL : Laid A h gs) (hs : h.search size fuel (h.hop 0) = some none) :
    h.NoRoom size := by
  obtain ⟨i, -, hstop, hseen⟩ := Heap.exists_stop hs
  intro j hlt
  refine hseen j (Nat.zero_le j) (Nat.lt_of_not_le fun hij => hstop ?_)
  have hle := hL.hop_mono hij
  rw [UInt32.lt_iff_toNat_lt] at hlt ⊢
  omega

end Laid

namespace Tidy

/-- **`rt_malloc` returns NULL** where it refuses the request. -/
theorem malloc_null_iff_refuses (hS : Tidy A h gs) (heq : h.malloc fuel size = some (p, h')) :
    p = 0 ↔ h.Refuses size := by
  have hlen := hS.size
  have hram := A.inRam
  obtain ⟨h16, h8, hle⟩ := toNat_granule size
  constructor
  · intro hp
    rcases Heap.malloc_cases heq with ⟨hwhy, -, -⟩ | ⟨found, hsearch, hgrant⟩
    · rcases hwhy with (hzero | hmost) | hsearch
      · exact .inl hzero
      · exact .inr (.inl hmost)
      · refine .inr (or_iff_not_imp_left.mpr fun hmost => ⟨?_, hS.toLaid.noRoom_of_search hsearch⟩)
        -- below 16 the bound of the search would wrap, and be behind every block
        obtain ⟨i, -, hstop, -⟩ := Heap.exists_stop (k := 0) hsearch
        have hplace := hS.toLaid.place_le (hS.toLaid.hop_place i)
        by_contra hmin
        rw [UInt32.lt_iff_toNat_lt] at hmost
        rw [UInt32.le_iff_toNat_le, toNat_minSizeAligned] at hmin
        have hgran : Heap.granule size = minSizeAligned := by
          refine if_pos ?_
          rw [UInt32.lt_iff_toNat_lt, toNat_minSizeAligned]
          omega
        rw [hgran, UInt32.lt_iff_toNat_lt, UInt32.toNat_sub, toNat_minSizeAligned] at hstop
        omega
    · obtain ⟨hfound, hfits⟩ := hS.of_search hsearch
      exact absurd hp (hS.grant h16 h8 hfound hfits hgrant).ne_zero
  · exact fun hno => (Heap.malloc_of_barren hno.barren heq).1

/-- There it returns. -/
theorem malloc_of_refuses (hS : Tidy A h gs) (hfuel : A.len < fuel) (hno : h.Refuses size) :
    h.malloc fuel size = some (0, h) := by
  have hsome : (h.malloc fuel size).isSome = true := by
    rcases hno with rfl | hmost | ⟨hmin, -⟩
    · rfl
    · unfold Heap.malloc
      rw [if_pos hmost]
      split <;> rfl
    · have hlen := hS.size
      rw [UInt32.le_iff_toNat_le, toNat_minSizeAligned] at hmin
      exact hS.malloc_isSome (by omega) hfuel
  obtain ⟨⟨p, h'⟩, heq⟩ := Option.isSome_iff_exists.mp hsome
  obtain rfl := (hS.malloc_null_iff_refuses heq).mpr hno
  obtain rfl := hS.unchanged_of_malloc heq rfl
  exact heq

end Tidy

/-! ### Runs -/

namespace HeapSys

/-- No part that `rt_realloc` cuts off is left below `lfree`: the block is not below it, or the
block behind is free. -/
def KeepsLow (s : HeapSys) : HeapOp → Prop
  | .realloc p newsize => s.heap.Cuts p newsize →
    s.heap.lfree < p ∨ s.heap.FreeAt (s.heap.next (p - sizeofStructMem))
  | op => s.CallocSafe op

variable {s s' : HeapSys}

theorem KeepsLow.safe {op : HeapOp} (hkeep : s.KeepsLow op) : s.CallocSafe op := by
  cases op with
  | realloc p newsize => trivial
  | malloc size => trivial
  | calloc count size => exact hkeep
  | free p => trivial
  | store p i v => trivial

/-- **Step.**  `lfree` stays low. -/
theorem Good.low_step (hgood : Good A s) (hlow : ∀ gs, Laid A s.heap gs → Low A s.heap gs)
    {fuel : ℕ} {op : HeapOp} (hkeep : s.KeepsLow op) (heq : s.step fuel op = some s') :
    ∀ gs, Laid A s'.heap gs → Low A s'.heap gs := by
  obtain ⟨gs, hT, hlive⟩ := hgood
  have hlowT := hlow gs hT.toLaid
  intro gs' hL'
  cases op with
  | malloc size =>
    obtain ⟨r, hr, rfl⟩ := Option.map_eq_some_iff.mp heq
    exact hT.low_malloc hlowT hr hL'
  | calloc count size =>
    obtain ⟨r, hr, rfl⟩ := Option.map_eq_some_iff.mp heq
    by_cases hle : (count * size).toNat ≤ 0xFFFFFFF8
    · exact hT.low_calloc hlowT hle hr hL'
    · obtain ⟨-, hsame⟩ := Heap.calloc_of_noRoom (by omega) (hkeep.resolve_left hle) hr
      obtain ⟨q, h₁⟩ := r
      obtain rfl := hsame
      exact hlow gs' hL'
  | realloc p newsize =>
    obtain ⟨hp, heq⟩ := Option.ite_none_right_eq_some.mp heq
    obtain ⟨r, hr, rfl⟩ := Option.map_eq_some_iff.mp heq
    exact hT.low_realloc hlowT (hp.imp_right (hlive p).mp) hr hkeep hL'
  | free p =>
    obtain ⟨hp, heq⟩ := Option.ite_none_right_eq_some.mp heq
    obtain rfl := Option.some.inj heq
    obtain rfl | hp := hp
    · exact hlow gs' hL'
    · exact hT.low_free hlowT ((hlive p).mp hp) hL'
  | store p i v =>
    obtain ⟨hp, heq⟩ := Option.ite_none_right_eq_some.mp heq
    obtain rfl := Option.some.inj heq
    exact (hT.store ((hlive p).mp hp.1) hp.2 v).toLaid.unique hL' ▸ hlowT

/-- After `rt_system_heap_init` `lfree` is at the start of the heap. -/
theorem low_boot (ram : ℕ → UInt8) {beginAddr endAddr : UInt32}
    (hacc : Heap.accepts beginAddr endAddr = true) (hL : Laid A (boot ram beginAddr endAddr).heap gs) :
    Low A (boot ram beginAddr endAddr).heap gs := by
  have hlf : (boot ram beginAddr endAddr).heap.lfree = (boot ram beginAddr endAddr).heap.heapPtr := by
    simp only [boot, Heap.init, hacc, if_true]
  intro o _ _
  rw [hlf, hL.heapPtr]
  exact Nat.le_add_right ..

end HeapSys

/-- **Free memory is found.**  In every run whose `rt_realloc` calls leave no free block below
`lfree` it stays at or below every free block, and in the state reached `rt_malloc` returns NULL
only if no free block has room, unless the one that has is the last block and has room for just
that size. -/
theorem free_memory_found {fuel : ℕ} {ram : ℕ → UInt8} {beginAddr endAddr : UInt32}
    (hacc : Heap.accepts beginAddr endAddr = true) {ops : List HeapOp} {s : HeapSys}
    (hkeep : Meets (HeapSys.step fuel) HeapSys.KeepsLow (HeapSys.boot ram beginAddr endAddr) ops)
    (hrun : exec (HeapSys.step fuel) (HeapSys.boot ram beginAddr endAddr) ops = some s) :
    s.heap.LowFree ∧ ∀ (f : ℕ) (n p : UInt32) (h' : Heap), 0 < n →
      s.heap.malloc f n = some (p, h') →
        ((p = 0 → ∀ k, ¬ s.heap.HasRoom n k) ↔ ¬ s.heap.OnlyLast n) := by
  obtain ⟨A, hboot⟩ := HeapSys.boot_good ram hacc
  let P : HeapSys → Prop := fun s =>
    HeapSys.Good A s ∧ ∀ gs, Laid A s.heap gs → Low A s.heap gs
  have hstart : P (HeapSys.boot ram beginAddr endAddr) :=
    ⟨hboot, fun gs => HeapSys.low_boot ram hacc⟩
  have hstep : ∀ s op s', P s → s.KeepsLow op → s.step fuel op = some s' → P s' :=
    fun s op s' hs hC heq => ⟨hs.1.step hC.safe heq, hs.1.low_step hs.2 hC heq⟩
  obtain ⟨⟨gs, hT, -⟩, hlow⟩ := exec_invariant hstep hstart hkeep hrun
  have hlowT := hlow gs hT.toLaid
  exact ⟨hT.toLaid.lowFree hlowT, fun f n p h' hn heq => hT.malloc_null_iff hlowT hn heq⟩

/-- A run in which the end of a block is cut off in front of free memory. -/
theorem free_memory_found_cut : ∃ s, exec (HeapSys.step 9)
    (HeapSys.boot (fun _ => 0xA5) 0x20001000 0x2000C000)
      [.malloc 100, .realloc 0x20001010 16, .malloc 60000] = some s ∧ s.heap.LowFree := by
  have hrun : (exec (HeapSys.step 9) (HeapSys.boot (fun _ => 0xA5) 0x20001000 0x2000C000)
      [.malloc 100, .realloc 0x20001010 16, .malloc 60000]).isSome = true := by
    decide +kernel
  have hcut : (HeapSys.step 9 (HeapSys.boot (fun _ => 0xA5) 0x20001000 0x2000C000)
      (.malloc 100)).map (fun s => s.heap.used (s.heap.entry (s.heap.next 0x20001000))) = some 0 := by
    decide +kernel
  have hkeep : Meets (HeapSys.step 9) HeapSys.KeepsLow
      (HeapSys.boot (fun _ => 0xA5) 0x20001000 0x2000C000)
      [.malloc 100, .realloc 0x20001010 16, .malloc 60000] := by
    refine ⟨trivial, fun s₁ hs₁ => ⟨fun _ => .inr ?_, fun _ _ => ⟨trivial, fun _ _ => trivial⟩⟩⟩
    exact read_run (fun s => s.heap.used (s.heap.entry (s.heap.next 0x20001000))) hs₁ hcut
  obtain ⟨s, hs⟩ := Option.isSome_iff_exists.mp hrun
  exact ⟨s, hs, (free_memory_found (by decide) hkeep hs).1⟩

/-- The rest of a block cut off below `lfree` is a free block of 0x3FF0 bytes that `rt_malloc` does
not find; and the one block of an empty heap is not given out whole. -/
theorem free_memory_missed :
    (∃ s, exec (HeapSys.step 9) (HeapSys.boot (fun _ => 0xA5) 0x20001000 0x2000C000)
        [.malloc 0x4000, .malloc 16, .realloc 0x20001010 16, .malloc 0x6000] = some s ∧
      ¬ s.heap.LowFree ∧ s.heap.HasRoom 0x2000 1 ∧
      (s.heap.malloc 9 0x2000).map Prod.fst = some 0) ∧
    (HeapSys.boot (fun _ => 0xA5) 0x20001000 0x2000C000).heap.HasRoom 0xAFE0 0 ∧
    ((HeapSys.boot (fun _ => 0xA5) 0x20001000 0x2000C000).heap.malloc 9 0xAFE0).map Prod.fst =
      some 0 := by
  refine ⟨?_, ⟨?_, ?_⟩, ?_⟩
  · have hrun : (exec (HeapSys.step 9) (HeapSys.boot (fun _ => 0xA5) 0x20001000 0x2000C000)
        [.malloc 0x4000, .malloc 16, .realloc 0x20001010 16, .malloc 0x6000]).map (fun s =>
          (s.heap.used (s.heap.entry (s.heap.blockAt 1)),
            decide (s.heap.lfree ≤ s.heap.entry (s.heap.blockAt 1)),
            s.heap.next (s.heap.entry (s.heap.blockAt 1)) - (s.heap.blockAt 1 + sizeofStructMem),
            (s.heap.malloc 9 0x2000).map Prod.fst)) =
        some (0, false, 0x3FE0, some 0) := by
      decide +kernel
    obtain ⟨s, hs, heq⟩ := Option.map_eq_some_iff.mp hrun
    simp only [Prod.mk.injEq, decide_eq_false_iff_not] at heq
    obtain ⟨hfree, hlow, hroom, hnull⟩ := heq
    refine ⟨s, hs, fun hall => hlow (hall 1 hfree), ⟨hfree, ?_⟩, hnull⟩
    rw [hroom]
    decide
  · show halfAt _ _ = 0
    decide +kernel
  · decide +kernel
  · decide +kernel

end Start01
