/-
Start01/Heap.lean

The heap behind `rt_malloc` (dlmem.c).  The arena lies in RAM, a byte memory; a pointer is
an address, and the structure `heap_mem` at the start of a block is the twelve bytes there:

    magic at 0, used at 2, next at 4, prev at 8,

`next` and `prev` being offsets from `heap_ptr`.  Both loops of `rt_malloc` follow `next`,
and carry fuel: `none` is a call that has not returned.

The hooks, the log messages and the assertions, which report and go on, are left out.
`memset` and `memcpy` are the bytes they write.
-/
import Start01.ParamCfg
import Start01.Lib.Tiling

namespace Start01

open Scatter

/-! ### Half words -/

/-- The half word stored at an address. -/
def halfAt (m : ℕ → UInt8) (a : ℕ) : UInt16 :=
  UInt16.ofNat ((m a).toNat + 256 * (m (a + 1)).toNat)

/-- `*(u16*)a = v`. -/
def storeHalf (m : ℕ → UInt8) (a : ℕ) (v : UInt16) : ℕ → UInt8 :=
  scatter m (fun i => a + i) (fun i => UInt8.ofNat (v.toNat / 256 ^ i)) 2

theorem halfAt_congr {m m' : ℕ → UInt8} {a : ℕ} (h : ∀ i < 2, m' (a + i) = m (a + i)) :
    halfAt m' a = halfAt m a := by
  have h0 : m' a = m a := h 0 (by omega)
  unfold halfAt
  rw [h0, h 1 (by omega)]

@[simp] theorem halfAt_storeHalf (m : ℕ → UInt8) (a : ℕ) (v : UInt16) :
    halfAt (storeHalf m a v) a = v := by
  have hbytes : ∀ i < 2, storeHalf m a v (a + i) = UInt8.ofNat (v.toNat / 256 ^ i) := fun i hi =>
    scatter_apply hi fun j _ hij => by omega
  have h0 : storeHalf m a v a = UInt8.ofNat (v.toNat / 256 ^ 0) := hbytes 0 (by omega)
  apply UInt16.toNat_inj.mp
  have hv := v.toNat_lt
  rw [halfAt, h0, hbytes 1 (by omega)]
  simp
  omega

/-! ### The allocator -/

/-- `RT_ALIGN_SIZE`. -/
def rtAlignSize : UInt32 := 8

/-- `RT_ALIGN(size, RT_ALIGN_SIZE)`. -/
def rtAlign (size : UInt32) : UInt32 := (size + rtAlignSize - 1) &&& ~~~(rtAlignSize - 1)

/-- `RT_ALIGN_DOWN(size, RT_ALIGN_SIZE)`. -/
def rtAlignDown (size : UInt32) : UInt32 := size &&& ~~~(rtAlignSize - 1)

/-- `HEAP_MAGIC`. -/
def heapMagic : UInt16 := 0x1ea0

/-- `MIN_SIZE`. -/
def minSize : UInt32 := 12

/-- `MIN_SIZE_ALIGNED`. -/
def minSizeAligned : UInt32 := rtAlign minSize

/-- `SIZEOF_STRUCT_MEM`: the twelve bytes of the structure, aligned. -/
def sizeofStructMem : UInt32 := rtAlign 12

/-- The statics of dlmem.c, and the RAM. -/
structure Heap where
  ram : ℕ → UInt8
  heapPtr : UInt32
  heapEnd : UInt32
  lfree : UInt32
  memSizeAligned : UInt32
  usedMem : UInt32
  maxMem : UInt32

/-- The statics before `main`, over whatever the RAM holds. -/
def Heap.reset (ram : ℕ → UInt8) : Heap where
  ram := ram
  heapPtr := 0
  heapEnd := 0
  lfree := 0
  memSizeAligned := 0
  usedMem := 0
  maxMem := 0

namespace Heap

/-- `(struct heap_mem *)&heap_ptr[ptr]`. -/
def entry (h : Heap) (ptr : UInt32) : UInt32 := h.heapPtr + ptr

/-- `mem->used`. -/
def used (h : Heap) (mem : UInt32) : UInt16 := halfAt h.ram (mem.toNat + 2)

/-- `mem->next`. -/
def next (h : Heap) (mem : UInt32) : UInt32 := wordAt h.ram (mem.toNat + 4)

/-- `mem->prev`. -/
def prev (h : Heap) (mem : UInt32) : UInt32 := wordAt h.ram (mem.toNat + 8)

/-- `mem->magic = v`. -/
def setMagic (h : Heap) (mem : UInt32) (v : UInt16) : Heap :=
  { h with ram := storeHalf h.ram mem.toNat v }

/-- `mem->used = v`. -/
def setUsed (h : Heap) (mem : UInt32) (v : UInt16) : Heap :=
  { h with ram := storeHalf h.ram (mem.toNat + 2) v }

/-- `mem->next = v`. -/
def setNext (h : Heap) (mem v : UInt32) : Heap :=
  { h with ram := storeWord h.ram (mem.toNat + 4) v }

/-- `mem->prev = v`. -/
def setPrev (h : Heap) (mem v : UInt32) : Heap :=
  { h with ram := storeWord h.ram (mem.toNat + 8) v }

/-- Combine `mem` and `nmem`, the block behind it. -/
def combine (h : Heap) (mem nmem : UInt32) : Heap :=
  let h := if h.lfree = nmem then { h with lfree := mem } else h
  let h := h.setNext mem (h.next nmem)
  h.setPrev (h.entry (h.next nmem)) (mem - h.heapPtr)

/-- `plug hole forward`. -/
def plugForward (h : Heap) (mem : UInt32) : Heap :=
  let nmem := h.entry (h.next mem)
  if mem ≠ nmem ∧ h.used nmem = 0 ∧ nmem ≠ h.heapEnd then h.combine mem nmem else h

/-- `plug hole backward`. -/
def plugBackward (h : Heap) (mem : UInt32) : Heap :=
  let pmem := h.entry (h.prev mem)
  if pmem ≠ mem ∧ h.used pmem = 0 then h.combine pmem mem else h

/-- `plug_holes`. -/
def plugHoles (h : Heap) (mem : UInt32) : Heap := (h.plugForward mem).plugBackward mem

/-- What `rt_system_heap_init` asks of a region. -/
def accepts (beginAddr endAddr : UInt32) : Bool :=
  let beginAlign := rtAlign beginAddr
  let endAlign := rtAlignDown endAddr
  endAlign > 2 * sizeofStructMem && endAlign - 2 * sizeofStructMem ≥ beginAlign

/-- `initialize the start of the heap`. -/
def initStart (h : Heap) : Heap :=
  let mem := h.heapPtr
  let h := h.setMagic mem heapMagic
  let h := h.setNext mem (h.memSizeAligned + sizeofStructMem)
  let h := h.setPrev mem 0
  h.setUsed mem 0

/-- `initialize the end of the heap`. -/
def initEnd (h : Heap) : Heap :=
  let h := { h with heapEnd := h.entry (h.next h.heapPtr) }
  let h := h.setMagic h.heapEnd heapMagic
  let h := h.setUsed h.heapEnd 1
  let h := h.setNext h.heapEnd (h.memSizeAligned + sizeofStructMem)
  h.setPrev h.heapEnd (h.memSizeAligned + sizeofStructMem)

/-- `rt_system_heap_init`. -/
def init (h : Heap) (beginAddr endAddr : UInt32) : Heap :=
  let beginAlign := rtAlign beginAddr
  let endAlign := rtAlignDown endAddr
  if accepts beginAddr endAddr then
    let memSizeAligned := endAlign - beginAlign - 2 * sizeofStructMem
    let h := { h with memSizeAligned := memSizeAligned, heapPtr := beginAlign }
    let h := h.initStart.initEnd
    { h with lfree := h.heapPtr }
  else h

/-- `used_mem += n`, and `max_mem` follows it. -/
def count (h : Heap) (n : UInt32) : Heap :=
  let usedMem := h.usedMem + n
  { h with usedMem := usedMem, maxMem := if h.maxMem < usedMem then usedMem else h.maxMem }

/-- The block at offset `ptr` is not used and has room for `size` bytes. -/
def fits (h : Heap) (ptr size : UInt32) : Bool :=
  h.used (h.entry ptr) = 0 && h.next (h.entry ptr) - (ptr + sizeofStructMem) ≥ size

/-- The `for` loop of `rt_malloc`, up to the block it stops at; `some none` when there is
none. -/
def search (h : Heap) (size : UInt32) : ℕ → UInt32 → Option (Option UInt32)
  | 0, _ => none
  | fuel + 1, ptr =>
    if ptr < h.memSizeAligned - size then
      if h.fits ptr size then some (some ptr) else h.search size fuel (h.next (h.entry ptr))
    else some none

/-- `while (lfree->used && lfree != heap_end) lfree = &heap_ptr[lfree->next]`. -/
def skipUsed (h : Heap) : ℕ → UInt32 → Option UInt32
  | 0, _ => none
  | fuel + 1, mem =>
    if h.used mem ≠ 0 ∧ mem ≠ h.heapEnd then h.skipUsed fuel (h.entry (h.next mem)) else some mem

/-- A free block at `ptr2` between the block at `ptr` and the one behind it, as far as the
headers of the two go. -/
def insert (h : Heap) (ptr ptr2 : UInt32) : Heap :=
  let mem := h.entry ptr
  let mem2 := h.entry ptr2
  let h := h.setUsed mem2 0
  let h := h.setNext mem2 (h.next mem)
  let h := h.setPrev mem2 ptr
  h.setNext mem ptr2

/-- The block behind the new one at `ptr2` is told of it, unless it is the end. -/
def linkBack (h : Heap) (ptr2 : UInt32) : Heap :=
  let mem2 := h.entry ptr2
  if h.next mem2 ≠ h.memSizeAligned + sizeofStructMem then
    h.setPrev (h.entry (h.next mem2)) ptr2
  else h

/-- What `rt_malloc` does with the block it has found. -/
def take (h : Heap) (ptr size : UInt32) : Heap :=
  let mem := h.entry ptr
  let h :=
    if h.next mem - (ptr + sizeofStructMem) ≥ size + sizeofStructMem + minSizeAligned then
      let ptr2 := ptr + sizeofStructMem + size
      let h := (h.insert ptr ptr2).setUsed mem 1
      (h.linkBack ptr2).count (size + sizeofStructMem)
    else
      let h := h.setUsed mem 1
      h.count (h.next mem - (mem - h.heapPtr))
  h.setMagic mem heapMagic

/-- The rest of `rt_malloc` once a block is found: `lfree` is moved on if it was there. -/
def grant (fuel : ℕ) (h : Heap) (ptr size : UInt32) : Option (UInt32 × Heap) :=
  let mem := h.entry ptr
  let h := h.take ptr size
  if mem = h.lfree then
    (h.skipUsed fuel h.lfree).map fun lfree => (mem + sizeofStructMem, { h with lfree := lfree })
  else some (mem + sizeofStructMem, h)

/-- The size that `rt_malloc` looks for. -/
def granule (size : UInt32) : UInt32 :=
  let size := rtAlign size
  if size < minSizeAligned then minSizeAligned else size

/-- `rt_malloc`: the pointer returned, 0 being NULL. -/
def malloc (fuel : ℕ) (h : Heap) (size : UInt32) : Option (UInt32 × Heap) :=
  if size = 0 then some (0, h)
  else if rtAlign size > h.memSizeAligned then some (0, h)
  else
    match h.search (granule size) fuel (h.lfree - h.heapPtr) with
    | none => none
    | some none => some (0, h)
    | some (some ptr) => h.grant fuel ptr (granule size)

/-- The part of `rt_free` behind its checks: the block at `mem` is given back. -/
def release (h : Heap) (mem : UInt32) : Heap :=
  let h := (h.setUsed mem 0).setMagic mem 0
  let h := if mem < h.lfree then { h with lfree := mem } else h
  let h := { h with usedMem := h.usedMem - (h.next mem - (mem - h.heapPtr)) }
  h.plugHoles mem

/-- `rt_free`. -/
def free (h : Heap) (rmem : UInt32) : Heap :=
  if rmem = 0 then h
  else if rmem < h.heapPtr ∨ rmem ≥ h.heapEnd then h
  else h.release (rmem - sizeofStructMem)

/-- `memset(p, 0, n)`. -/
def zero (h : Heap) (p n : UInt32) : Heap :=
  { h with ram := fun a => if p.toNat ≤ a ∧ a < p.toNat + n.toNat then 0 else h.ram a }

/-- `memcpy(q, p, n)`. -/
def copy (h : Heap) (q p n : UInt32) : Heap :=
  { h with ram := fun a =>
      if q.toNat ≤ a ∧ a < q.toNat + n.toNat then h.ram (p.toNat + (a - q.toNat)) else h.ram a }

/-- `rt_realloc` shrinking a block: the rest of it becomes a free block. -/
def shrink (h : Heap) (ptr size newsize : UInt32) : Heap :=
  let h := { h with usedMem := h.usedMem - (size - newsize) }
  let ptr2 := ptr + sizeofStructMem + newsize
  let mem2 := h.entry ptr2
  let h := ((h.setMagic mem2 heapMagic).insert ptr ptr2).linkBack ptr2
  h.plugHoles mem2

/-- `rt_realloc`. -/
def realloc (fuel : ℕ) (h : Heap) (rmem newsize : UInt32) : Option (UInt32 × Heap) :=
  let newsize := rtAlign newsize
  if newsize > h.memSizeAligned then some (0, h)
  else if rmem = 0 then h.malloc fuel newsize
  else if rmem < h.heapPtr ∨ rmem ≥ h.heapEnd then some (rmem, h)
  else
    let mem := rmem - sizeofStructMem
    let ptr := mem - h.heapPtr
    let size := h.next mem - ptr - sizeofStructMem
    if size = newsize then some (rmem, h)
    else if newsize + sizeofStructMem + minSize < size then
      some (rmem, h.shrink ptr size newsize)
    else
      (h.malloc fuel newsize).map fun (nmem, h) =>
        if nmem ≠ 0 then
          (nmem, (h.copy nmem rmem (if size < newsize then size else newsize)).free rmem)
        else (nmem, h)

/-- The test in front of `split memory block`, behind the checks of the pointer. -/
def Cuts (h : Heap) (rmem newsize : UInt32) : Prop :=
  let newsize := rtAlign newsize
  let mem := rmem - sizeofStructMem
  rmem ≠ 0 ∧ newsize ≤ h.memSizeAligned ∧
    newsize + sizeofStructMem + minSize < h.next mem - (mem - h.heapPtr) - sizeofStructMem

/-- `rt_calloc`. -/
def calloc (fuel : ℕ) (h : Heap) (count size : UInt32) : Option (UInt32 × Heap) :=
  (h.malloc fuel (count * size)).map fun (p, h) =>
    if p ≠ 0 then (p, h.zero p (count * size)) else (p, h)

end Heap

end Start01
