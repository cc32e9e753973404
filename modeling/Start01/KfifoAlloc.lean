/-
Start01/KfifoAlloc.lean

`kfifo_alloc` and `kfifo_free` (kfifo.c) over the heap of dlmem.c.  The buffer and the
structure come from `rt_malloc`; they are given back to `free`, the C library's, which is no
part of the program.  It is a parameter `free` here, and all that is asked of it is that it
does not write `used_mem`, a static of dlmem.c.

`rt_malloc` counts each block in `used_mem`, and only `rt_free` takes it off again, so what
has been allocated is never given back.
-/
import Start01.HeapLow
import Start01.Kfifo

namespace Start01

open Tiling Run

/-! ### The calls -/

/-- `sizeof(struct kfifo)`. -/
def sizeofKfifo : UInt32 := 16

namespace Heap

/-- The structure at `fifo`: `buffer` at 0, `size` at 4, `in` at 8 and `out` at 12. -/
def kfifoAt (h : Heap) (fifo : UInt32) : Kfifo where
  buffer := fun i => h.ram ((wordAt h.ram fifo.toNat).toNat + i)
  size := wordAt h.ram (fifo.toNat + 4)
  inn := wordAt h.ram (fifo.toNat + 8)
  out := wordAt h.ram (fifo.toNat + 12)

/-- `fifo->buffer`. -/
def kfifoBuffer (h : Heap) (fifo : UInt32) : UInt32 := wordAt h.ram fifo.toNat

/-- What `kfifo_init` writes to the structure. -/
def setKfifo (h : Heap) (fifo buffer size : UInt32) : Heap :=
  let ram := storeWord h.ram fifo.toNat buffer
  let ram := storeWord ram (fifo.toNat + 4) size
  let ram := storeWord ram (fifo.toNat + 12) 0
  { h with ram := storeWord ram (fifo.toNat + 8) 0 }

/-- `kfifo_init`: the pointer returned, 0 being NULL. -/
def kfifoInit (fuel : ℕ) (h : Heap) (buffer size : UInt32) : Option (UInt32 × Heap) :=
  (h.malloc fuel sizeofKfifo).map fun (fifo, h) =>
    if fifo = 0 then (0, h) else (fifo, h.setKfifo fifo buffer size)

variable (free : Heap → UInt32 → Heap)

/-- `kfifo_alloc`. -/
def kfifoAlloc (fuel : ℕ) (h : Heap) (size : UInt32) : Option (UInt32 × Heap) := do
  let (buffer, h) ← h.malloc fuel size
  if buffer = 0 then return (0, h)
  let (ret, h) ← h.kfifoInit fuel buffer size
  if ret = 0 then return (ret, free h buffer)
  return (ret, h)

/-- `kfifo_free`. -/
def kfifoFree (h : Heap) (fifo : UInt32) : Heap :=
  let h := free h (h.kfifoBuffer fifo)
  free h fifo

end Heap

/-! ### What they should do -/

/-- A FIFO whose size is the requested one rounded up to a power of two, over a buffer of at
least that many bytes; and `kfifo_free` gives both blocks back: the heap is well formed
again with the pointers that were live before, and no more is counted. -/
structure Allocated (free : Heap → UInt32 → Heap) (s : HeapSys) (size fifo : UInt32) (h : Heap) :
    Prop where
  ne_zero : fifo ≠ 0
  size_eq : (h.kfifoAt fifo).size.toNat = 2 ^ Nat.clog 2 size.toNat
  room : (h.kfifoBuffer fifo).toNat + (h.kfifoAt fifo).size.toNat ≤
    h.blockEnd (h.kfifoBuffer fifo)
  back : (⟨h.kfifoFree free fifo, s.live⟩ : HeapSys).WellFormed
  usedMem : (h.kfifoFree free fifo).usedMem = s.heap.usedMem

/-- `kfifo_alloc` returns, either NULL with the heap as it was, or a FIFO. -/
def AllocOk (free : Heap → UInt32 → Heap) (s : HeapSys) (size : UInt32) : Prop :=
  ∃ fuel fifo h, s.heap.kfifoAlloc free fuel size = some (fifo, h) ∧
    (fifo = 0 ∧ h = s.heap ∨ Allocated free s size fifo h)

/-! ### kfifo_alloc -/

variable {A : Arena} {h h' : Heap} {gs : List Block} {size p : UInt32} {fuel : ℕ}

section Alloc

variable {free : Heap → UInt32 → Heap} {fifo : UInt32} {s : HeapSys}

/-- What `kfifo_alloc` can do: get no buffer; get no structure, and pass the buffer to `free`; or
fill in the structure. -/
theorem Heap.kfifoAlloc_cases (heq : h.kfifoAlloc free fuel size = some (fifo, h')) :
    ∃ buffer h₁, h.malloc fuel size = some (buffer, h₁) ∧
      (buffer = 0 ∧ fifo = 0 ∧ h' = h₁ ∨
        buffer ≠ 0 ∧ ∃ q h₂, h₁.malloc fuel sizeofKfifo = some (q, h₂) ∧
          (q = 0 ∧ fifo = 0 ∧ h' = free h₂ buffer ∨
            q ≠ 0 ∧ fifo = q ∧ h' = h₂.setKfifo q buffer size)) := by
  unfold kfifoAlloc at heq
  obtain ⟨⟨buffer, h₁⟩, hbuf, heq⟩ := Option.bind_eq_some_iff.mp heq
  refine ⟨buffer, h₁, hbuf, ?_⟩
  simp only at heq
  split at heq
  · rename_i hzero
    obtain ⟨rfl, rfl⟩ := Prod.mk.injEq .. ▸ Option.some.inj heq
    exact .inl ⟨hzero, rfl, rfl⟩
  · rename_i hne
    obtain ⟨⟨ret, h₃⟩, hinit, heq⟩ := Option.bind_eq_some_iff.mp heq
    obtain ⟨⟨q, h₂⟩, hq, hres⟩ := Option.map_eq_some_iff.mp hinit
    refine .inr ⟨hne, q, h₂, hq, ?_⟩
    simp only at hres heq
    split at hres
    · rename_i hzero
      obtain ⟨rfl, rfl⟩ := Prod.mk.injEq .. ▸ hres
      rw [if_pos rfl] at heq
      obtain ⟨rfl, rfl⟩ := Prod.mk.injEq .. ▸ Option.some.inj heq
      exact .inl ⟨hzero, rfl, rfl⟩
    · rename_i hnz
      obtain ⟨rfl, rfl⟩ := Prod.mk.injEq .. ▸ hres
      rw [if_neg hnz] at heq
      obtain ⟨rfl, rfl⟩ := Prod.mk.injEq .. ▸ Option.some.inj heq
      exact .inr ⟨hnz, rfl, rfl⟩

/-- The structure that `kfifo_init` fills in: an empty FIFO of the size asked for. -/
theorem Heap.kfifoAt_setKfifo (h : Heap) (fifo buffer size : UInt32) :
    (h.setKfifo fifo buffer size).kfifoBuffer fifo = buffer ∧
      (h.setKfifo fifo buffer size).kfifoAt fifo =
        kfifoInitStatic (fun i => (h.setKfifo fifo buffer size).ram (buffer.toNat + i)) size := by
  have hbuffer : wordAt (h.setKfifo fifo buffer size).ram fifo.toNat = buffer := by
    simp only [setKfifo]
    rw [wordAt_storeWord_of_disjoint (by omega), wordAt_storeWord_of_disjoint (by omega),
      wordAt_storeWord_of_disjoint (by omega), wordAt_storeWord]
  have hsize : wordAt (h.setKfifo fifo buffer size).ram (fifo.toNat + 4) = size := by
    simp only [setKfifo]
    rw [wordAt_storeWord_of_disjoint (by omega), wordAt_storeWord_of_disjoint (by omega),
      wordAt_storeWord]
  have hin : wordAt (h.setKfifo fifo buffer size).ram (fifo.toNat + 8) = 0 := by
    simp only [setKfifo]
    rw [wordAt_storeWord]
  have hout : wordAt (h.setKfifo fifo buffer size).ram (fifo.toNat + 12) = 0 := by
    simp only [setKfifo]
    rw [wordAt_storeWord_of_disjoint (by omega), wordAt_storeWord]
  refine ⟨hbuffer, ?_⟩
  rw [kfifoAt, hbuffer, hsize, hin, hout]
  rfl

/-- **The size of a FIFO** is the one asked for: it is not rounded up. -/
theorem Heap.kfifoAlloc_size (heq : h.kfifoAlloc free fuel size = some (fifo, h')) (hne : fifo ≠ 0) :
    (h'.kfifoAt fifo).size = size := by
  obtain ⟨buffer, h₁, -, ⟨-, hnull, -⟩ | ⟨-, q, h₂, -, ⟨-, hnull, -⟩ | ⟨-, rfl, rfl⟩⟩⟩ :=
    kfifoAlloc_cases heq
  · exact absurd hnull hne
  · exact absurd hnull hne
  · rw [(h₂.kfifoAt_setKfifo fifo buffer size).2]
    rfl

/-- So it is what it should be for a power of two only. -/
theorem Heap.kfifoAlloc_size_iff (heq : h.kfifoAlloc free fuel size = some (fifo, h'))
    (hne : fifo ≠ 0) :
    (h'.kfifoAt fifo).size.toNat = 2 ^ Nat.clog 2 size.toNat ↔ ∃ k, size.toNat = 2 ^ k := by
  rw [kfifoAlloc_size heq hne]
  constructor
  · exact fun hpow => ⟨_, hpow⟩
  · rintro ⟨k, hk⟩
    rw [hk, Nat.clog_pow 2 k (by decide)]

/-- `kfifo_free` leaves what `rt_malloc` has counted. -/
theorem Heap.usedMem_kfifoFree (hfree : ∀ h p, (free h p).usedMem = h.usedMem) (h : Heap)
    (fifo : UInt32) : (h.kfifoFree free fifo).usedMem = h.usedMem :=
  (hfree _ _).trans (hfree _ _)

/-- Without a buffer nothing has changed; with one, it is counted, and stays so whatever comes of the
structure. -/
theorem Tidy.kfifoAlloc_counted (hfree : ∀ h p, (free h p).usedMem = h.usedMem)
    (hT : Tidy A h gs) (heq : h.kfifoAlloc free fuel size = some (fifo, h')) :
    h.Refuses size ∧ fifo = 0 ∧ h' = h ∨ h.usedMem < h'.usedMem := by
  obtain ⟨buffer, h₁, hbuf, ⟨hzero, hnull, rfl⟩ | ⟨hne, q, h₂, hq, hcase⟩⟩ := Heap.kfifoAlloc_cases heq
  · have hsame := hT.unchanged_of_malloc hbuf hzero
    exact .inl ⟨(hT.malloc_null_iff_refuses hbuf).mp hzero, hnull, hsame⟩
  · right
    have hlt := hT.usedMem_lt_of_malloc hbuf hne
    obtain ⟨-, l, g, r, hT₁, -⟩ := hT.granted hbuf hne
    have hle : h₁.usedMem ≤ h₂.usedMem := by
      by_cases hnull : q = 0
      · obtain rfl := hT₁.unchanged_of_malloc hq hnull
        exact UInt32.le_refl _
      · exact UInt32.le_of_lt (hT₁.usedMem_lt_of_malloc hq hnull)
    rcases hcase with ⟨-, -, rfl⟩ | ⟨-, -, rfl⟩
    · rw [hfree]
      exact UInt32.lt_of_lt_of_le hlt hle
    · exact UInt32.lt_of_lt_of_le hlt hle

/-- **`kfifo_alloc` does what it should** only where `rt_malloc` has nothing for the buffer. -/
theorem Tidy.allocOk_iff (hfree : ∀ h p, (free h p).usedMem = h.usedMem)
    (hS : Tidy A s.heap gs) (size : UInt32) : AllocOk free s size ↔ s.heap.Refuses size := by
  constructor
  · rintro ⟨fuel, fifo, h', heq, hok⟩
    obtain ⟨hno, -, -⟩ | hlt := hS.kfifoAlloc_counted hfree heq
    · exact hno
    · have hmore := UInt32.ne_of_lt hlt
      rcases hok with ⟨-, rfl⟩ | halloc
      · exact absurd rfl hmore
      · rw [← halloc.usedMem, Heap.usedMem_kfifoFree hfree] at hmore
        exact absurd rfl hmore
  · intro hno
    have hmalloc := hS.malloc_of_refuses (Nat.lt_succ_self A.len) hno
    refine ⟨A.len + 1, 0, s.heap, ?_, .inl ⟨rfl, rfl⟩⟩
    rw [Heap.kfifoAlloc, hmalloc]
    rfl

end Alloc

/-- **`kfifo_alloc` over every reachable heap.**  Either `rt_malloc` refuses the buffer, or the call
does not do what it should.  The size alone is right where a power of two was asked for. -/
theorem kfifoAlloc_ok_iff {free : Heap → UInt32 → Heap}
    (hfree : ∀ h p, (free h p).usedMem = h.usedMem) {fuel : ℕ} {ram : ℕ → UInt8}
    {beginAddr endAddr : UInt32} (hacc : Heap.accepts beginAddr endAddr = true) {ops : List HeapOp}
    {s : HeapSys} (hsafe : Meets (HeapSys.step fuel) HeapSys.CallocSafe
      (HeapSys.boot ram beginAddr endAddr) ops)
    (hrun : exec (HeapSys.step fuel) (HeapSys.boot ram beginAddr endAddr) ops = some s)
    (size : UInt32) : (AllocOk free s size ↔ s.heap.Refuses size) ∧
      ∀ (f : ℕ) (fifo : UInt32) (h : Heap), s.heap.kfifoAlloc free f size = some (fifo, h) →
        fifo ≠ 0 →
          ((h.kfifoAt fifo).size.toNat = 2 ^ Nat.clog 2 size.toNat ↔ ∃ k, size.toNat = 2 ^ k) := by
  obtain ⟨A, hboot⟩ := HeapSys.boot_good ram hacc
  obtain ⟨gs, hT, -⟩ := exec_invariant (fun _ _ _ hs hC heq => HeapSys.Good.step hs hC heq) hboot
    hsafe hrun
  exact ⟨hT.allocOk_iff hfree size, fun f fifo h heq hne => Heap.kfifoAlloc_size_iff heq hne⟩

/-- In a heap that is in use. -/
theorem kfifoAlloc_ok_iff_run : ∃ s, exec (HeapSys.step 9)
    (HeapSys.boot (fun _ => 0xA5) 0x20001000 0x2000C000) [.malloc 10, .malloc 0xAF80] = some s ∧
      (AllocOk (fun h _ => h) s 64 ↔ s.heap.Refuses 64) := by
  have hrun : (exec (HeapSys.step 9) (HeapSys.boot (fun _ => 0xA5) 0x20001000 0x2000C000)
      [.malloc 10, .malloc 0xAF80]).isSome = true := by
    decide +kernel
  obtain ⟨s, hs⟩ := Option.isSome_iff_exists.mp hrun
  refine ⟨s, hs, (kfifoAlloc_ok_iff (fun _ _ => rfl) (by decide) ?_ hs 64).1⟩
  exact ⟨trivial, fun _ _ => ⟨trivial, fun _ _ => trivial⟩⟩

/-- A FIFO for 100 bytes has the size 100, and its blocks, 152 bytes with the headers, stay counted
when it is freed. -/
theorem kfifoAlloc_not_ok :
    ¬ AllocOk (fun h _ => h) (HeapSys.boot (fun _ => 0xA5) 0x20001000 0x2000C000) 100 ∧
      ((HeapSys.boot (fun _ => 0xA5) 0x20001000 0x2000C000).heap.kfifoAlloc (fun h _ => h) 9 100).map
        (fun r => (r.1, (r.2.kfifoAt r.1).size, (r.2.kfifoFree (fun h _ => h) r.1).usedMem)) =
      some (0x20001088, 100, 152) := by
  refine ⟨fun hok => ?_, by decide +kernel⟩
  obtain ⟨A, gs, hT, -⟩ := HeapSys.boot_good (fun _ => 0xA5)
    (show Heap.accepts 0x20001000 0x2000C000 = true by decide)
  have hfits : (HeapSys.boot (fun _ => 0xA5) 0x20001000 0x2000C000).heap.fits 0
      (Heap.granule 100) = true := by
    decide +kernel
  rcases (hT.allocOk_iff (fun _ _ => rfl) 100).mp hok with hzero | hmost | ⟨-, hno⟩
  · exact absurd hzero (by decide)
  · exact absurd hmost (by decide)
  · exact absurd (hno 0 (by decide)) (by
      rw [show (HeapSys.boot (fun _ => 0xA5) 0x20001000 0x2000C000).heap.hop 0 = 0 by decide, hfits]
      decide)

end Start01
