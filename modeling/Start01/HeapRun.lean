/-
Start01/HeapRun.lean

The heap over whole runs.  A program calls `rt_malloc`, `rt_calloc`, `rt_realloc` and
`rt_free`, and stores into the blocks it holds; to `rt_realloc` and `rt_free` it passes
NULL or a pointer it has been given and has not given back (`live`).

`rt_calloc` computes the length of its `memset` modulo 2^32, and `rt_malloc` rounds a
length above 0xFFFFFFF8 up to 0.  Such a call gets the smallest block and writes zeros over
all that is behind it.  In a run without it the heap stays well formed
(`heap_wellFormed`).
-/
import Start01.HeapOps
import Start01.Lib.Run

namespace Start01

open Tiling Run

/-! ### Runs -/

/-- The heap, and the pointers handed out and not given back. -/
structure HeapSys where
  heap : Heap
  live : Finset UInt32

/-- What a program does with the heap. -/
inductive HeapOp
  | malloc (size : UInt32)
  | calloc (count size : UInt32)
  | realloc (p newsize : UInt32)
  | free (p : UInt32)
  | store (p : UInt32) (i : ℕ) (v : UInt8)

/-- The address at which the block with data at `p` ends. -/
def Heap.blockEnd (h : Heap) (p : UInt32) : ℕ :=
  h.heapPtr.toNat + (h.next (p - sizeofStructMem)).toNat

namespace Heap

/-- The offsets that the search of `rt_malloc` comes to. -/
def hop (h : Heap) : ℕ → UInt32
  | 0 => h.lfree - h.heapPtr
  | k + 1 => h.next (h.entry (h.hop k))

/-- No block that the search comes to has room for `size` bytes. -/
def NoRoom (h : Heap) (size : UInt32) : Prop :=
  ∀ k, h.hop k < h.memSizeAligned - size → h.fits (h.hop k) size = false

theorem search_of_noRoom {h : Heap} {size found : UInt32} (hno : h.NoRoom size) {fuel : ℕ} :
    ∀ {k : ℕ}, h.search size fuel (h.hop k) ≠ some (some found) := by
  induction fuel with
  | zero => exact fun hs => by cases hs
  | succ fuel ih =>
    intro k
    rw [search]
    split
    · rename_i hlt
      rw [hno k hlt]
      exact ih (k := k + 1)
    · exact fun hs => by cases hs

/-- A length that is rounded up to 0 gets no block where there is no room for the smallest. -/
theorem calloc_of_noRoom {h h' : Heap} {fuel : ℕ} {count size p : UInt32}
    (hlen : 0xFFFFFFF8 < (count * size).toNat) (hno : h.NoRoom minSizeAligned)
    (heq : h.calloc fuel count size = some (p, h')) : p = 0 ∧ h' = h := by
  have hleast : granule (count * size) = minSizeAligned := by
    have hlt := (count * size).toNat_lt
    refine if_pos ?_
    rw [UInt32.lt_iff_toNat_lt, toNat_minSizeAligned, toNat_rtAlign]
    omega
  obtain ⟨⟨q, h₁⟩, hmalloc, hres⟩ := Option.map_eq_some_iff.mp heq
  obtain ⟨rfl, rfl⟩ | ⟨found, hsearch, -⟩ := malloc_eq_some hmalloc
  · obtain ⟨rfl, rfl⟩ := Prod.mk.injEq .. ▸ hres
    exact ⟨rfl, rfl⟩
  · rw [hleast] at hsearch
    exact absurd hsearch (search_of_noRoom hno (k := 0))

end Heap

/-- A store into a block in use leaves the blocks. -/
theorem Tidy.store {A : Arena} {h : Heap} {gs : List Block} (hT : Tidy A h gs) {p : UInt32}
    (hp : Holds A gs p) {i : ℕ} (hlt : p.toNat + i < h.blockEnd p) (v : UInt8) :
    Tidy A { h with ram := Function.update h.ram (p.toNat + i) v } gs := by
  obtain ⟨l, g, r, rfl, -, hpt⟩ := hp.exists_block
  rw [Heap.blockEnd, (hT.fields_at (Tidy.toNat_sub_header hpt)).1, hT.heapPtr] at hlt
  refine hT.setRam fun a ha => ?_
  rw [Function.update_apply, if_neg (by omega)]

namespace HeapSys

/-- After `rt_system_heap_init`. -/
def boot (ram : ℕ → UInt8) (beginAddr endAddr : UInt32) : HeapSys where
  heap := (Heap.reset ram).init beginAddr endAddr
  live := ∅

/-- A call has returned `r.1` in place of the pointer `p`. -/
def swap (s : HeapSys) (p : UInt32) (r : UInt32 × Heap) : HeapSys where
  heap := r.2
  live := if r.1 = 0 then s.live else insert r.1 (s.live.erase p)

/-- One operation; `none` where a call does not return, or may not be made. -/
def step (fuel : ℕ) (s : HeapSys) : HeapOp → Option HeapSys
  | .malloc size => (s.heap.malloc fuel size).map (s.swap 0)
  | .calloc count size => (s.heap.calloc fuel count size).map (s.swap 0)
  | .realloc p newsize =>
    if p = 0 ∨ p ∈ s.live then (s.heap.realloc fuel p newsize).map (s.swap p) else none
  | .free p =>
    if p = 0 ∨ p ∈ s.live then some ⟨s.heap.free p, s.live.erase p⟩ else none
  | .store p i v =>
    if p ∈ s.live ∧ p.toNat + i < s.heap.blockEnd p then
      some { s with heap := { s.heap with ram := Function.update s.heap.ram (p.toNat + i) v } }
    else none

/-- The `memset` of an `rt_calloc` stays in its block: the length is not rounded up to 0, or
there is no block for it. -/
def CallocSafe (s : HeapSys) : HeapOp → Prop
  | .calloc count size =>
    (count * size).toNat ≤ 0xFFFFFFF8 ∨ s.heap.NoRoom minSizeAligned
  | _ => True

/-- The heap is laid out in the blocks. -/
structure Blocks (s : HeapSys) (gs : List Block) : Prop where
  /-- From offset 0 on, `next` and `prev` link the blocks… -/
  tiles : Tiles s.heap.header 0 0 gs
  /-- …which hold their headers and reach to `heap_end`. -/
  sizes : ∀ g ∈ gs, 16 ≤ g.size
  reach : s.heap.heapPtr.toNat + total gs = s.heap.heapEnd.toNat
  separate : Separate gs
  /-- `lfree` is at a block, or at the end. -/
  lfree : ∃ o, s.heap.lfree.toNat = s.heap.heapPtr.toNat + o ∧ (o ∈ seams 0 gs ∨ o = total gs)
  /-- The live pointers are those to the data of the blocks in use. -/
  live : ∀ p, p ∈ s.live ↔ ∃ o ∈ usedSeams 0 gs, p.toNat = s.heap.heapPtr.toNat + o + 16
  usedMem : s.heap.usedMem.toNat = usedTotal gs

/-- The heap is well formed. -/
structure WellFormed (s : HeapSys) : Prop where
  blocks : ∃ gs, s.Blocks gs
  aligned : ∀ p ∈ s.live, 8 ∣ p.toNat
  disjoint : ∀ p ∈ s.live, ∀ q ∈ s.live, p ≠ q →
    s.heap.blockEnd p + 16 ≤ q.toNat ∨ s.heap.blockEnd q + 16 ≤ p.toNat
  maxMem : s.heap.usedMem ≤ s.heap.maxMem

/-! ### The invariant -/

/-- The allocator keeps the blocks, and the live pointers are those that hold. -/
def Good (A : Arena) (s : HeapSys) : Prop :=
  ∃ gs, Tidy A s.heap gs ∧ ∀ p, p ∈ s.live ↔ Holds A gs p

variable {A : Arena} {s s' : HeapSys}

theorem Good.wellFormed (h : Good A s) : s.WellFormed := by
  obtain ⟨gs, hT, hlive⟩ := h
  have hbase := hT.heapPtr
  have hpos : ∀ p ∈ s.live, ∃ l g r, gs = l ++ g :: r ∧ p.toNat = A.base + total l + 16 ∧
      s.heap.blockEnd p = A.base + total l + g.size := fun p hp => by
    obtain ⟨l, g, r, rfl, -, hpt⟩ := ((hlive p).mp hp).exists_block
    refine ⟨l, g, r, rfl, hpt, ?_⟩
    rw [Heap.blockEnd, (hT.fields_at (Tidy.toNat_sub_header hpt)).1, hbase, Nat.add_assoc]
  refine ⟨⟨gs, hT.tiles, hT.le_size, ?_, hT.separate, ?_, ?_, hT.usedMem⟩, ?_, ?_, hT.maxMem⟩
  · rw [hT.heapPtr, hT.heapEnd, hT.total]
  · rw [hbase, hT.total]
    exact hT.lfree
  · rw [hbase]
    exact hlive
  · intro p hp
    obtain ⟨l, g, r, rfl, hpt, -⟩ := hpos p hp
    have hl : 8 ∣ total l := dvd_total fun b hb => (hT.sizes b (by simp [hb])).2
    have hA := A.aligned
    omega
  · intro p hp q hq hne
    obtain ⟨l, g, r, heq, hpt, hpe⟩ := hpos p hp
    obtain ⟨l', g', r', heq', hqt, hqe⟩ := hpos q hq
    have hseam : total l ∈ seams 0 gs := mem_seams_iff.mpr ⟨l, g, r, heq, (Nat.zero_add _).symm⟩
    have hseam' : total l' ∈ seams 0 gs :=
      mem_seams_iff.mpr ⟨l', g', r', heq', (Nat.zero_add _).symm⟩
    have hap := Laid.apart (heq ▸ hT.toLaid) (.inl (heq ▸ hseam'))
    have hap' := Laid.apart (heq' ▸ hT.toLaid) (.inl (heq' ▸ hseam))
    have hapart : total l ≠ total l' := fun hc =>
      hne (UInt32.toNat_inj.mp (by rw [hpt, hqt, hc]))
    omega

/-! ### Steps -/

/-- A call that returns a pointer in place of `p`, or NULL. -/
theorem good_swap {gs : List Block} {p : UInt32} {r : UInt32 × Heap} (hT : Tidy A s.heap gs)
    (hlive : ∀ x, x ∈ s.live ↔ Holds A gs x) (hr : Returned A gs s.heap p r.1 r.2) :
    Good A (s.swap p r) := by
  obtain ⟨hnull, hsame⟩ | ⟨hne, gs', hT', hholds⟩ := hr
  · refine ⟨gs, ?_, ?_⟩
    · simp only [HeapSys.swap, hsame]
      exact hT
    · simpa only [HeapSys.swap, hnull, if_true] using hlive
  · refine ⟨gs', hT', fun x => ?_⟩
    simp only [HeapSys.swap, if_neg hne, Finset.mem_insert, Finset.mem_erase, hlive, hholds]

/-- **Step.** -/
theorem Good.step (h : Good A s) {fuel : ℕ} {op : HeapOp} (hsafe : s.CallocSafe op)
    (heq : s.step fuel op = some s') : Good A s' := by
  obtain ⟨gs, hT, hlive⟩ := h
  cases op with
  | malloc size =>
    obtain ⟨r, hr, rfl⟩ := Option.map_eq_some_iff.mp heq
    exact good_swap hT hlive ((hT.malloc hr).elim .inl Granted.returned)
  | calloc count size =>
    obtain ⟨r, hr, rfl⟩ := Option.map_eq_some_iff.mp heq
    refine good_swap hT hlive ?_
    by_cases hle : (count * size).toNat ≤ 0xFFFFFFF8
    · exact hT.calloc hle hr
    · exact .inl (Heap.calloc_of_noRoom (by omega) (hsafe.resolve_left hle) hr)
  | realloc p newsize =>
    obtain ⟨hp, heq⟩ := Option.ite_none_right_eq_some.mp heq
    obtain ⟨r, hr, rfl⟩ := Option.map_eq_some_iff.mp heq
    exact good_swap hT hlive (hT.realloc (hp.imp_right (hlive p).mp) hr)
  | free p =>
    obtain ⟨hp, heq⟩ := Option.ite_none_right_eq_some.mp heq
    obtain rfl := Option.some.inj heq
    obtain rfl | hp := hp
    · refine ⟨gs, hT, fun x => ?_⟩
      rw [Finset.mem_erase, hlive]
      exact and_iff_right_of_imp Holds.ne_zero
    · obtain ⟨gs', hT', hholds⟩ := hT.free ((hlive p).mp hp)
      refine ⟨gs', hT', fun x => ?_⟩
      rw [Finset.mem_erase, hlive, hholds]
  | store p i v =>
    obtain ⟨hp, heq⟩ := Option.ite_none_right_eq_some.mp heq
    obtain rfl := Option.some.inj heq
    exact ⟨gs, hT.store ((hlive p).mp hp.1) hp.2 v, hlive⟩

/-- What the program may do: to `rt_realloc` and `rt_free` it passes NULL or a live pointer,
and it stores into live blocks. -/
def Permits (s : HeapSys) : HeapOp → Prop
  | .malloc _ | .calloc _ _ => True
  | .realloc p _ | .free p => p = 0 ∨ p ∈ s.live
  | .store p i _ => p ∈ s.live ∧ p.toNat + i < s.heap.blockEnd p

/-- What the program may do is done: in an arena with room for a block every call returns. -/
theorem Good.step_isSome (h : Good A s) (hlen : 32 ≤ A.len) {fuel : ℕ} (hfuel : A.len < fuel)
    {op : HeapOp} (hop : s.Permits op) : (s.step fuel op).isSome = true := by
  obtain ⟨gs, hT, -⟩ := h
  cases op with
  | malloc size =>
    rw [HeapSys.step, Option.isSome_map]
    exact hT.malloc_isSome hlen hfuel
  | calloc count size =>
    rw [HeapSys.step, Option.isSome_map]
    exact hT.calloc_isSome hlen hfuel
  | realloc p newsize =>
    rw [HeapSys.step, if_pos (show p = 0 ∨ p ∈ s.live from hop), Option.isSome_map]
    exact hT.realloc_isSome hlen hfuel
  | free p =>
    rw [HeapSys.step, if_pos (show p = 0 ∨ p ∈ s.live from hop)]
    rfl
  | store p i v =>
    rw [HeapSys.step, if_pos (show p ∈ s.live ∧ p.toNat + i < s.heap.blockEnd p from hop)]
    rfl

/-! ### The start -/

/-- The header at the start of the heap. -/
theorem header_initStart {h : Heap} {x : ℕ} (hx : x = 0 ∨ 12 ≤ x) : h.initStart.header x =
    if x = 0 then ⟨(h.memSizeAligned + sizeofStructMem).toNat, 0, false⟩ else h.header x := by
  let h₁ := h.setMagic h.heapPtr heapMagic
  let h₂ := h₁.setNext h.heapPtr (h.memSizeAligned + sizeofStructMem)
  let h₃ := h₂.setPrev h.heapPtr 0
  have hmem : h.heapPtr.toNat = h.heapPtr.toNat + 0 := rfl
  have hx' : x = 0 ∨ x + 12 ≤ 0 ∨ 0 + 12 ≤ x := by omega
  change (h₃.setUsed h.heapPtr 0).header x = _
  rw [Heap.header_setUsed (h := h₃) hmem hx', Heap.header_setPrev (h := h₂) hmem hx',
    Heap.header_setNext (h := h₁) hmem hx', Heap.header_setMagic hmem hx']
  split <;> rfl

/-- And at its end. -/
theorem header_initEnd {h : Heap} {o x : ℕ}
    (hend : (h.entry (h.next h.heapPtr)).toNat = h.heapPtr.toNat + o)
    (hx : x = o ∨ x + 12 ≤ o ∨ o + 12 ≤ x) :
    (h.initEnd.header x) =
      if x = o then ⟨(h.memSizeAligned + sizeofStructMem).toNat,
        (h.memSizeAligned + sizeofStructMem).toNat, true⟩ else h.header x := by
  let h₀ : Heap := { h with heapEnd := h.entry (h.next h.heapPtr) }
  let h₁ := h₀.setMagic h₀.heapEnd heapMagic
  let h₂ := h₁.setUsed h₀.heapEnd 1
  let h₃ := h₂.setNext h₀.heapEnd (h.memSizeAligned + sizeofStructMem)
  change (h₃.setPrev h₀.heapEnd (h.memSizeAligned + sizeofStructMem)).header x = _
  rw [Heap.header_setPrev (h := h₃) hend hx, Heap.header_setNext (h := h₂) hend hx,
    Heap.header_setUsed (h := h₁) hend hx, Heap.header_setMagic (h := h₀) hend hx]
  split <;> rfl

/-- **`rt_system_heap_init`** leaves one free block. -/
theorem boot_good (ram : ℕ → UInt8) {beginAddr endAddr : UInt32}
    (hacc : Heap.accepts beginAddr endAddr = true) : ∃ A, Good A (boot ram beginAddr endAddr) := by
  have hb := toNat_rtAlign beginAddr
  have he := toNat_rtAlignDown endAddr
  have hmax := endAddr.toNat_lt
  have h32 : (2 * sizeofStructMem).toNat = 32 := by decide
  simp only [boot, Heap.init, hacc, if_true]
  rw [Heap.accepts, Bool.and_eq_true, decide_eq_true_iff, decide_eq_true_iff, gt_iff_lt, ge_iff_le,
    UInt32.lt_iff_toNat_lt, UInt32.le_iff_toNat_le, h32] at hacc
  generalize rtAlign beginAddr = b at *
  generalize rtAlignDown endAddr = e at *
  have hsub : (e - 2 * sizeofStructMem).toNat = e.toNat - 32 := by
    rw [toNat_sub_of_le] <;> rw [h32]
    omega
  rw [hsub] at hacc
  have hdiff : (e - b).toNat = e.toNat - b.toNat := toNat_sub_of_le (by omega)
  have hmsa : (e - b - 2 * sizeofStructMem).toNat = e.toNat - b.toNat - 32 := by
    rw [toNat_sub_of_le] <;> rw [hdiff, h32]
    omega
  generalize e - b - 2 * sizeofStructMem = m at *
  have hlen : (m + sizeofStructMem).toNat = m.toNat + 16 := by
    rw [toNat_add_of_lt] <;> rw [toNat_sizeofStructMem]
    omega
  generalize hh₀ : ({ Heap.reset ram with memSizeAligned := m, heapPtr := b } : Heap) = h₀
  have hsize : h₀.memSizeAligned = m := by rw [← hh₀]
  have hptr : h₀.heapPtr = b := by rw [← hh₀]
  have hstats : h₀.usedMem = 0 ∧ h₀.maxMem = 0 := by rw [← hh₀]; exact ⟨rfl, rfl⟩
  clear hh₀
  have hstart : h₀.initStart.header 0 = ⟨m.toNat + 16, 0, false⟩ := by
    rw [header_initStart (.inl rfl), if_pos rfl, hsize, hlen]
  have hend : (h₀.initStart.entry (h₀.initStart.next h₀.initStart.heapPtr)).toNat =
      h₀.initStart.heapPtr.toNat + (m.toNat + 16) := by
    have hnext : (h₀.initStart.next h₀.initStart.heapPtr).toNat = m.toNat + 16 := by
      rw [Heap.toNat_next (Nat.add_zero _).symm, hstart]
    have hptr' : h₀.initStart.heapPtr = b := hptr
    rw [Heap.entry, toNat_add_of_lt] <;> rw [hnext, hptr']
    omega
  have hH := fun x => header_initEnd (x := x) hend
  have hfirst : h₀.initStart.initEnd.header 0 = ⟨m.toNat + 16, 0, false⟩ := by
    rw [hH 0 (by omega), if_neg (by omega), hstart]
  have hlast : h₀.initStart.initEnd.header (m.toNat + 16) = ⟨m.toNat + 16, m.toNat + 16, true⟩ := by
    rw [hH _ (.inl rfl), if_pos rfl]
    simp only [show h₀.initStart.memSizeAligned = m from hsize, hlen]
  refine ⟨⟨b.toNat, m.toNat + 16, by omega, by omega⟩, [⟨m.toNat + 16, false⟩], ?_, fun p => ?_⟩
  · refine ⟨⟨congrArg UInt32.toNat hptr, ?_, ?_, ?_, ?_, ?_, ?_, ?_⟩, ?_, ?_, ?_, ?_⟩
    · exact hend.trans (by rw [show h₀.initStart.heapPtr = b from hptr])
    · exact congrArg (fun n : UInt32 => n.toNat + 16) hsize
    · exact ⟨congrArg Header.used hlast, congrArg Header.next hlast⟩
    · refine ⟨hfirst.trans ?_, trivial⟩
      rw [Nat.zero_add]
    · rfl
    · intro g hg
      obtain rfl := List.mem_singleton.mp hg
      exact ⟨by simp only; omega, by simp only; omega⟩
    · exact ⟨0, congrArg UInt32.toNat hptr, .inl (by simp)⟩
    · exact separate_singleton _
    · exact fun o ho => absurd ho List.not_mem_nil
    · exact congrArg UInt32.toNat hstats.1
    · exact UInt32.le_iff_toNat_le.mpr (le_of_eq (congrArg UInt32.toNat
        (hstats.1.trans hstats.2.symm)))
  · simp [Holds]

end HeapSys

/-- **The heap stays well formed** in every run whose `rt_calloc` calls are safe. -/
theorem heap_wellFormed {fuel : ℕ} {ram : ℕ → UInt8} {beginAddr endAddr : UInt32}
    (hacc : Heap.accepts beginAddr endAddr = true) {ops : List HeapOp} {s : HeapSys}
    (hsafe : Meets (HeapSys.step fuel) HeapSys.CallocSafe
      (HeapSys.boot ram beginAddr endAddr) ops)
    (hrun : exec (HeapSys.step fuel) (HeapSys.boot ram beginAddr endAddr) ops = some s) :
    s.WellFormed := by
  obtain ⟨A, hboot⟩ := HeapSys.boot_good ram hacc
  exact (exec_invariant (fun _ _ _ hs hC heq => HeapSys.Good.step hs hC heq) hboot hsafe
    hrun).wellFormed

/-- **Every call returns**, in every run of what the program may do, of a heap with room for a
block, and the heap stays well formed. -/
theorem heap_returns {fuel : ℕ} {ram : ℕ → UInt8} {beginAddr endAddr : UInt32}
    (hacc : Heap.accepts beginAddr endAddr = true)
    (hroom : 16 ≤ (HeapSys.boot ram beginAddr endAddr).heap.memSizeAligned.toNat)
    (hfuel : (HeapSys.boot ram beginAddr endAddr).heap.memSizeAligned.toNat + 16 < fuel)
    {ops : List HeapOp} (hok : Meets (HeapSys.step fuel) (fun s op => s.Permits op ∧ s.CallocSafe op)
      (HeapSys.boot ram beginAddr endAddr) ops) :
    ∃ s, exec (HeapSys.step fuel) (HeapSys.boot ram beginAddr endAddr) ops = some s ∧
      s.WellFormed := by
  obtain ⟨A, hboot⟩ := HeapSys.boot_good ram hacc
  obtain ⟨gs, hT, -⟩ := id hboot
  have hlen := hT.size
  obtain ⟨s, hs, hgood⟩ := exec_total (fun s op (h : HeapSys.Good A s) hop => by
    obtain ⟨s', hs'⟩ := Option.isSome_iff_exists.mp
      (h.step_isSome (by omega) (hlen ▸ hfuel) hop.1)
    exact ⟨s', hs', h.step hop.2 hs'⟩) hboot hok
  exact ⟨s, hs, hgood.wellFormed⟩

/-- A run in which a block is split, moved, and freed into its neighbours. -/
def heapRun : List HeapOp :=
  [.malloc 10, .calloc 4 4, .store 0x20001010 9 7, .realloc 0x20001010 100, .free 0x20001030]

theorem heap_wellFormed_run : ∃ s,
    exec (HeapSys.step 9) (HeapSys.boot (fun _ => 0xA5) 0x20001000 0x2000C000) heapRun = some s ∧
      s.WellFormed := by
  have hrun : (exec (HeapSys.step 9) (HeapSys.boot (fun _ => 0xA5) 0x20001000 0x2000C000)
      heapRun).isSome = true := by
    decide +kernel
  obtain ⟨s, hs⟩ := Option.isSome_iff_exists.mp hrun
  refine ⟨s, hs, heap_wellFormed (by decide) ?_ hs⟩
  exact ⟨trivial, fun _ _ => ⟨.inl (by decide), fun _ _ => ⟨trivial, fun _ _ => ⟨trivial,
    fun _ _ => ⟨trivial, fun _ _ => trivial⟩⟩⟩⟩⟩

/-- What the program may do, where the length of an `rt_calloc` can be tested. -/
def HeapSys.check (s : HeapSys) : HeapOp → Bool
  | .malloc _ => true
  | .calloc count size => decide ((count * size).toNat ≤ 0xFFFFFFF8)
  | .realloc p _ | .free p => decide (p = 0 ∨ p ∈ s.live)
  | .store p i _ => decide (p ∈ s.live ∧ p.toNat + i < s.heap.blockEnd p)

theorem HeapSys.permits_of_check {s : HeapSys} {op : HeapOp} (h : s.check op = true) :
    s.Permits op ∧ s.CallocSafe op := by
  cases op with
  | malloc size => exact ⟨trivial, trivial⟩
  | calloc count size => exact ⟨trivial, .inl (of_decide_eq_true h)⟩
  | realloc p newsize =>
    have hp := of_decide_eq_true h
    exact ⟨hp, trivial⟩
  | free p =>
    have hp := of_decide_eq_true h
    exact ⟨hp, trivial⟩
  | store p i v =>
    have hp := of_decide_eq_true h
    exact ⟨hp, trivial⟩

theorem heap_returns_run : ∃ s, exec (HeapSys.step 300)
    (HeapSys.boot (fun _ => 0xA5) 0x20001000 0x20001100) heapRun = some s ∧ s.WellFormed := by
  have hok : Meets (HeapSys.step 300) (fun s op => s.check op = true)
      (HeapSys.boot (fun _ => 0xA5) 0x20001000 0x20001100) heapRun := by
    decide +kernel
  exact heap_returns (by decide) (by decide +kernel) (by decide +kernel)
    (hok.mono fun _ _ => HeapSys.permits_of_check)

/-- An `rt_calloc` of 2^32 - 1 bytes gets a block of 16 and clears the header behind it. -/
theorem heap_torn : ¬ ∀ (fuel : ℕ) (ram : ℕ → UInt8) (beginAddr endAddr : UInt32)
    (ops : List HeapOp) (s : HeapSys), Heap.accepts beginAddr endAddr = true →
    exec (HeapSys.step fuel) (HeapSys.boot ram beginAddr endAddr) ops = some s →
    s.WellFormed := by
  intro hall
  have hrun : (exec (HeapSys.step 2) (HeapSys.boot (fun _ => 0xA5) 0x20001000 0x2000C000)
      [.calloc 1 0xFFFFFFFF]).map (fun s => (s.heap.header 0, s.heap.header 32,
        s.heap.heapPtr, s.heap.heapEnd)) =
      some (⟨32, 0, true⟩, ⟨0, 0, false⟩, 0x20001000, 0x2000BFF0) := by
    decide +kernel
  obtain ⟨s, hs, heq⟩ := Option.map_eq_some_iff.mp hrun
  simp only [Prod.mk.injEq] at heq
  obtain ⟨h0, h32, hptr, hend⟩ := heq
  obtain ⟨gs, hB⟩ := (hall _ _ _ _ _ s (by decide) hs).blocks
  have hreach := hB.reach
  rw [hptr, hend] at hreach
  have htiles := hB.tiles
  -- the first block ends at 32, and from there `next` goes back
  match gs with
  | [] => exact absurd hreach (by decide)
  | [g] =>
    have hsize := congrArg Header.next (h0.symm.trans htiles.1)
    simp only [Nat.zero_add] at hsize
    rw [total_cons, ← hsize] at hreach
    exact absurd hreach (by decide)
  | g :: g' :: gs =>
    have hsize := congrArg Header.next (h0.symm.trans htiles.1)
    simp only [Nat.zero_add] at hsize
    have hnext := htiles.2.1
    rw [Nat.zero_add, ← hsize] at hnext
    have hback := congrArg Header.next (h32.symm.trans hnext)
    simp only at hback
    omega

end Start01
