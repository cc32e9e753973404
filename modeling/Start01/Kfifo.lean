/-
Start01/Kfifo.lean

The byte FIFO of kfifo.c and kfifo.h.  `in` and `out` run freely and wrap at 2^32; a
byte has the place of its counter modulo the size, which is a power of two.

The buffer has `size` bytes, and every access to it is checked: one that leaves it
is `none`.  A caller's buffer is a function from its first byte on.

In a valid FIFO the counters are at most `size` apart, and the bytes between them
are a window of the ring.  Each operation keeps it valid and does to the window what
it should do to a queue, so that a run of operations is one on a queue
(`kfifo_refines_queue`).
-/
import Start01.Lib.Ring
import Start01.Lib.Run

namespace Start01

open Scatter Ring Run

/-! ### The FIFO -/

/-- `struct kfifo`. -/
structure Kfifo where
  buffer : ℕ → UInt8
  size : UInt32
  /-- `in`. -/
  inn : UInt32
  out : UInt32

/-- `min` of kfifo.c. -/
def minU32 (x y : UInt32) : UInt32 := if x < y then x else y

/-- `fifo->in & (fifo->size - 1)`, and the same for `out`. -/
def Kfifo.mask (fifo : Kfifo) (n : UInt32) : UInt32 := n &&& (fifo.size - 1)

/-- A `memcpy` of `n` bytes to the buffer. -/
def Kfifo.copyIn (fifo : Kfifo) (off : UInt32) (data : ℕ → UInt8) (n : UInt32) : Option Kfifo :=
  if off.toNat + n.toNat ≤ fifo.size.toNat then
    some { fifo with buffer := scatter fifo.buffer (fun i => off.toNat + i) data n.toNat }
  else none

/-- A `memcpy` of `n` bytes from the buffer. -/
def Kfifo.copyOut (fifo : Kfifo) (off n : UInt32) : Option (List UInt8) :=
  if off.toNat + n.toNat ≤ fifo.size.toNat then
    some ((List.range n.toNat).map fun i => fifo.buffer (off.toNat + i))
  else none

/-- `kfifo_init_static`; `kfifo_init` does the same to a new FIFO. -/
def kfifoInitStatic (buffer : ℕ → UInt8) (size : UInt32) : Kfifo where
  buffer := buffer
  size := size
  inn := 0
  out := 0

/-- `kfifo_put`: the number of bytes copied. -/
def kfifoPut (fifo : Kfifo) (buffer : ℕ → UInt8) (len : UInt32) : Option (UInt32 × Kfifo) := do
  let len := minU32 len (fifo.size - fifo.inn + fifo.out)
  let l := minU32 len (fifo.size - fifo.mask fifo.inn)
  let fifo ← fifo.copyIn (fifo.mask fifo.inn) buffer l
  let fifo ← fifo.copyIn 0 (fun i => buffer (l.toNat + i)) (len - l)
  return (len, { fifo with inn := fifo.inn + len })

/-- `kfifo_get`: the number of bytes copied, and these. -/
def kfifoGet (fifo : Kfifo) (len : UInt32) : Option (UInt32 × List UInt8 × Kfifo) := do
  let len := minU32 len (fifo.inn - fifo.out)
  let l := minU32 len (fifo.size - fifo.mask fifo.out)
  let bs ← fifo.copyOut (fifo.mask fifo.out) l
  let bs' ← fifo.copyOut 0 (len - l)
  return (len, bs ++ bs', { fifo with out := fifo.out + len })

/-- `kfifo_putc`. -/
def kfifoPutc (fifo : Kfifo) (c : UInt8) : Option Kfifo := do
  let fifo ← fifo.copyIn (fifo.mask fifo.inn) (fun _ => c) 1
  let fifo := { fifo with inn := fifo.inn + 1 }
  return if fifo.inn - fifo.out > fifo.size then { fifo with out := fifo.out + 1 } else fifo

/-- `kfifo_getc`: the byte, unless -1 is returned. -/
def kfifoGetc (fifo : Kfifo) : Option (Option UInt8 × Kfifo) :=
  if fifo.inn = fifo.out then some (none, fifo)
  else do
    let bs ← fifo.copyOut (fifo.mask fifo.out) 1
    return (bs.head?, { fifo with out := fifo.out + 1 })

/-- `kfifo_reset`. -/
def kfifoReset (fifo : Kfifo) : Kfifo := { fifo with inn := 0, out := 0 }

/-- `kfifo_len`. -/
def kfifoLen (fifo : Kfifo) : UInt32 := fifo.inn - fifo.out

/-! ### The queue in the buffer -/

namespace Kfifo

/-- The number of bytes queued. -/
def used (fifo : Kfifo) : ℕ := (kfifoLen fifo).toNat

/-- The bytes queued, the oldest first. -/
def queue (fifo : Kfifo) : List UInt8 :=
  window fifo.size.toNat fifo.buffer fifo.out.toNat fifo.used

/-- The size is a power of two up to 2^31, and no more bytes are queued. -/
structure Valid (fifo : Kfifo) : Prop where
  pow : ∃ k ≤ 31, fifo.size.toNat = 2 ^ k
  used_le : fifo.used ≤ fifo.size.toNat

variable {fifo : Kfifo}

@[simp] theorem queue_length (fifo : Kfifo) : fifo.queue.length = fifo.used := window_length _ _

theorem Valid.size_pos (h : fifo.Valid) : 0 < fifo.size.toNat := by
  obtain ⟨k, -, hk⟩ := h.pow
  rw [hk]
  exact Nat.two_pow_pos k

theorem Valid.size_le (h : fifo.Valid) : fifo.size.toNat ≤ 2147483648 := by
  obtain ⟨k, hle, hk⟩ := h.pow
  rw [hk]
  exact Nat.pow_le_pow_right (by omega) hle

/-- The size divides the period of the counters. -/
theorem Valid.size_dvd (h : fifo.Valid) : fifo.size.toNat ∣ 4294967296 := by
  obtain ⟨k, hle, hk⟩ := h.pow
  rw [hk]
  exact Nat.pow_dvd_pow 2 (show k ≤ 32 by omega)

/-- The mask takes the counter modulo the size. -/
theorem Valid.mask_toNat (h : fifo.Valid) (n : UInt32) :
    (fifo.mask n).toNat = n.toNat % fifo.size.toNat := by
  obtain ⟨k, -, hk⟩ := h.pow
  have hpos := h.size_pos
  have hlt := fifo.size.toNat_lt
  have hsub : (fifo.size - 1).toNat = fifo.size.toNat - 1 := by
    rw [UInt32.toNat_sub, UInt32.toNat_one]
    omega
  rw [mask, UInt32.toNat_and, hsub, hk, Nat.and_two_pow_sub_one_eq_mod]

/-- So the wrapping of a counter does not move its place. -/
theorem Valid.mod_size (h : fifo.Valid) (n : ℕ) :
    n % 4294967296 % fifo.size.toNat = n % fifo.size.toNat :=
  Nat.mod_mod_of_dvd n h.size_dvd

theorem used_eq (fifo : Kfifo) :
    fifo.used = (4294967296 - fifo.out.toNat + fifo.inn.toNat) % 4294967296 := by
  rw [used, kfifoLen, UInt32.toNat_sub]

theorem used_eq_zero_iff : fifo.used = 0 ↔ fifo.inn = fifo.out := by
  have hin := fifo.inn.toNat_lt
  have hout := fifo.out.toNat_lt
  rw [used_eq, ← UInt32.toNat_inj]
  omega

/-- The writer's counter moves on. -/
theorem used_advance_inn {n : UInt32} (h : fifo.used + n.toNat < 4294967296)
    (buffer : ℕ → UInt8) :
    (Kfifo.mk buffer fifo.size (fifo.inn + n) fifo.out).used = fifo.used + n.toNat := by
  have hin := fifo.inn.toNat_lt
  have hout := fifo.out.toNat_lt
  rw [used_eq] at h ⊢
  rw [used_eq, UInt32.toNat_add]
  dsimp only
  omega

/-- The reader's counter moves on. -/
theorem used_advance_out {n : UInt32} (h : n.toNat ≤ fifo.used) (buffer : ℕ → UInt8) :
    (Kfifo.mk buffer fifo.size fifo.inn (fifo.out + n)).used = fifo.used - n.toNat := by
  have hin := fifo.inn.toNat_lt
  have hout := fifo.out.toNat_lt
  rw [used_eq] at h ⊢
  rw [used_eq, UInt32.toNat_add]
  dsimp only
  omega

/-- `in` is `used` places ahead of `out`. -/
theorem inn_toNat (fifo : Kfifo) :
    fifo.inn.toNat = (fifo.out.toNat + fifo.used) % 4294967296 := by
  have hin := fifo.inn.toNat_lt
  have hout := fifo.out.toNat_lt
  rw [used_eq]
  omega

/-- The queue is a window from any number that stands at the place of `out`. -/
theorem Valid.window_inn (h : fifo.Valid) (i : ℕ) :
    (fifo.inn.toNat + i) % fifo.size.toNat = (fifo.out.toNat + fifo.used + i) % fifo.size.toNat := by
  rw [inn_toNat, Nat.add_mod, h.mod_size, ← Nat.add_mod]

/-- Where the counter of the reader stands after `n` bytes. -/
theorem Valid.window_out_add (h : fifo.Valid) (m : ℕ → UInt8) (n : UInt32) (k : ℕ) :
    window fifo.size.toNat m (fifo.out + n).toNat k
      = window fifo.size.toNat m (fifo.out.toNat + n.toNat) k := by
  rw [UInt32.toNat_add]
  exact window_congr_start (h.mod_size _) k

end Kfifo

theorem minU32_toNat (x y : UInt32) : (minU32 x y).toNat = min x.toNat y.toNat := by
  unfold minU32
  split
  · rename_i h
    rw [UInt32.lt_iff_toNat_lt] at h
    omega
  · rename_i h
    rw [UInt32.lt_iff_toNat_lt] at h
    omega

/-! ### What each operation does -/

namespace Kfifo

variable {fifo : Kfifo}

theorem copyIn_eq {off n : UInt32} (data : ℕ → UInt8)
    (h : off.toNat + n.toNat ≤ fifo.size.toNat) :
    fifo.copyIn off data n
      = some { fifo with buffer := scatter fifo.buffer (fun i => off.toNat + i) data n.toNat } :=
  if_pos h

theorem copyOut_eq {off n : UInt32} (h : off.toNat + n.toNat ≤ fifo.size.toNat) :
    fifo.copyOut off n = some ((List.range n.toNat).map fun i => fifo.buffer (off.toNat + i)) :=
  if_pos h

/-- The free space, as `kfifo_put` computes it. -/
theorem Valid.free_toNat (h : fifo.Valid) :
    (fifo.size - fifo.inn + fifo.out).toNat = fifo.size.toNat - fifo.used := by
  have hused := h.used_le
  have hin := fifo.inn.toNat_lt
  have hout := fifo.out.toNat_lt
  have hsize := h.size_le
  rw [UInt32.toNat_add, UInt32.toNat_sub]
  rw [used_eq] at hused ⊢
  omega

/-- The piece up to the end of the buffer. -/
theorem Valid.piece_toNat (h : fifo.Valid) (len n : UInt32) :
    (minU32 len (fifo.size - fifo.mask n)).toNat
      = min len.toNat (fifo.size.toNat - n.toNat % fifo.size.toNat) := by
  have hlt := Nat.mod_lt n.toNat h.size_pos
  have hsize := fifo.size.toNat_lt
  rw [minU32_toNat, UInt32.toNat_sub, h.mask_toNat]
  congr 1
  omega

/-- The reader's counter moves on, and the first bytes leave the queue. -/
theorem Valid.advance_out (h : fifo.Valid) {n : UInt32} (hn : n.toNat ≤ fifo.used) :
    ({ fifo with out := fifo.out + n } : Kfifo).Valid ∧
      ({ fifo with out := fifo.out + n } : Kfifo).queue = fifo.queue.drop n.toNat := by
  have hadv := @used_advance_out fifo n hn fifo.buffer
  refine ⟨⟨h.pow, ?_⟩, ?_⟩
  · rw [hadv]
    exact (Nat.sub_le _ _).trans h.used_le
  · rw [queue, hadv, queue, drop_window hn]
    exact h.window_out_add fifo.buffer n _

/-- The bytes at the front of the queue, the last of them apart. -/
theorem take_succ_queue {k : ℕ} (hk : k < fifo.used) :
    fifo.queue.take (k + 1)
      = fifo.queue.take k ++ [fifo.buffer (cell fifo.size.toNat fifo.out.toNat k)] := by
  rw [queue, take_window hk, take_window hk.le, window_succ_last]

/-- What `kfifo_put` does: both pieces together are one block of the ring. -/
theorem Valid.kfifoPut_eq (h : fifo.Valid) (data : ℕ → UInt8) {len n : UInt32}
    (hn : n = minU32 len (fifo.size - fifo.inn + fifo.out)) :
    kfifoPut fifo data len = some (n,
      ⟨scatter fifo.buffer (cell fifo.size.toNat fifo.inn.toNat) data n.toNat, fifo.size,
        fifo.inn + n, fifo.out⟩) := by
  have hpos := h.size_pos
  have hmod := Nat.mod_lt fifo.inn.toNat hpos
  have hmask := h.mask_toNat fifo.inn
  have hle : n.toNat ≤ fifo.size.toNat := by
    rw [hn, minU32_toNat, h.free_toNat]
    omega
  obtain ⟨l, hl⟩ : ∃ l, l = minU32 n (fifo.size - fifo.mask fifo.inn) := ⟨_, rfl⟩
  have hlv : l.toNat = min n.toNat (fifo.size.toNat - fifo.inn.toNat % fifo.size.toNat) := by
    rw [hl, h.piece_toNat]
  have hrest : (n - l).toNat = n.toNat - l.toNat :=
    UInt32.toNat_sub_of_le _ _ (UInt32.le_iff_toNat_le.mpr (by omega))
  have htwo := @scatter_two_pieces UInt8 fifo.size.toNat fifo.buffer fifo.inn.toNat n.toNat hle
    hpos data l.toNat hlv
  simp only [kfifoPut, ← hn, ← hl]
  rw [copyIn_eq data (by rw [hmask]; omega), Option.bind_eq_bind, Option.bind_some,
    copyIn_eq _ (by show 0 + _ ≤ fifo.size.toNat; rw [hrest]; omega), hmask, hrest, ← htwo]
  simp

/-- **put.**  The first bytes that fit are appended. -/
theorem Valid.put (h : fifo.Valid) (data : ℕ → UInt8) (len : UInt32) :
    ∃ n fifo', kfifoPut fifo data len = some (n, fifo') ∧ fifo'.Valid ∧
      fifo'.size = fifo.size ∧ n.toNat = min len.toNat (fifo.size.toNat - fifo.used) ∧
      fifo'.queue = fifo.queue ++ (List.range n.toNat).map data := by
  have hused := h.used_le
  obtain ⟨n, hn⟩ : ∃ n, n = minU32 len (fifo.size - fifo.inn + fifo.out) := ⟨_, rfl⟩
  have hnv : n.toNat = min len.toNat (fifo.size.toNat - fifo.used) := by
    rw [hn, minU32_toNat, h.free_toNat]
  have hcell : (fun i => cell fifo.size.toNat (fifo.out.toNat + fifo.used) i)
      = cell fifo.size.toNat fifo.inn.toNat := funext fun i => (h.window_inn i).symm
  have hfull : fifo.used + n.toNat ≤ fifo.size.toNat := by omega
  have hadv := @used_advance_inn fifo n (hfull.trans_lt fifo.size.toNat_lt)
  refine ⟨n, _, h.kfifoPut_eq data hn, ⟨h.pow, ?_⟩, rfl, hnv, ?_⟩
  · rw [hadv]
    exact hfull
  · rw [queue, hadv, ← hcell]
    exact window_write hfull data

/-- **get.**  The first bytes asked for are taken out. -/
theorem Valid.get (h : fifo.Valid) (len : UInt32) :
    ∃ n fifo', kfifoGet fifo len = some (n, fifo.queue.take n.toNat, fifo') ∧ fifo'.Valid ∧
      fifo'.size = fifo.size ∧ n.toNat = min len.toNat fifo.used ∧
      fifo'.queue = fifo.queue.drop n.toNat := by
  have hpos := h.size_pos
  have hused := h.used_le
  have hmod := Nat.mod_lt fifo.out.toNat hpos
  obtain ⟨n, hn⟩ : ∃ n, n = minU32 len (fifo.inn - fifo.out) := ⟨_, rfl⟩
  obtain ⟨l, hl⟩ : ∃ l, l = minU32 n (fifo.size - fifo.mask fifo.out) := ⟨_, rfl⟩
  have hnv : n.toNat = min len.toNat fifo.used := by
    rw [hn, minU32_toNat]
    rfl
  have hlv : l.toNat = min n.toNat (fifo.size.toNat - fifo.out.toNat % fifo.size.toNat) := by
    rw [hl, h.piece_toNat]
  have hrest : (n - l).toNat = n.toNat - l.toNat :=
    UInt32.toNat_sub_of_le _ _ (UInt32.le_iff_toNat_le.mpr (by omega))
  have htwo := @window_two_pieces UInt8 fifo.size.toNat fifo.buffer fifo.out.toNat n.toNat
    (by omega) hpos l.toNat hlv
  obtain ⟨hv, hq⟩ := @Valid.advance_out fifo h n (by omega)
  refine ⟨n, { fifo with out := fifo.out + n }, ?_, hv, rfl, hnv, hq⟩
  have hmask := h.mask_toNat fifo.out
  simp only [kfifoGet, ← hn, ← hl]
  rw [copyOut_eq (by rw [hmask]; omega), Option.bind_eq_bind, Option.bind_some,
    copyOut_eq (by show 0 + _ ≤ fifo.size.toNat; rw [hrest]; omega), hmask, hrest, queue,
    take_window (by omega), ← htwo]
  simp

/-- The number of bytes `kfifo_get` copies, and where it leaves the FIFO. -/
theorem kfifoGet_eq_some {len n : UInt32} {bs : List UInt8} {fifo' : Kfifo}
    (h : kfifoGet fifo len = some (n, bs, fifo')) :
    n = minU32 len (fifo.inn - fifo.out) ∧ fifo' = { fifo with out := fifo.out + n } := by
  simp only [kfifoGet, Option.bind_eq_bind, Option.bind_eq_some_iff, Option.pure_def,
    Option.some.injEq, Prod.mk.injEq] at h
  obtain ⟨bs₁, -, bs₂, -, rfl, -, rfl⟩ := h
  exact ⟨rfl, rfl⟩

/-- One byte is read at the place of `out`, and one written at that of `in`. -/
theorem Valid.mask_add_one_le (h : fifo.Valid) (n : UInt32) :
    (fifo.mask n).toNat + (1 : UInt32).toNat ≤ fifo.size.toNat := by
  rw [h.mask_toNat]
  exact Nat.mod_lt n.toNat h.size_pos

/-- With one byte more, only a full FIFO has too many. -/
theorem Valid.putc_gt_iff (h : fifo.Valid) :
    fifo.inn + 1 - fifo.out > fifo.size ↔ fifo.used = fifo.size.toNat := by
  have hused := h.used_le
  have hsize := h.size_le
  have hlen := @used_advance_inn fifo 1 (show fifo.used + 1 < 4294967296 by omega) fifo.buffer
  rw [used, kfifoLen] at hlen
  rw [gt_iff_lt, UInt32.lt_iff_toNat_lt, hlen, UInt32.toNat_one]
  omega

/-- **putc.**  The byte is appended; in a full FIFO the oldest byte makes room. -/
theorem Valid.putc (h : fifo.Valid) (c : UInt8) :
    ∃ fifo', kfifoPutc fifo c = some fifo' ∧ fifo'.Valid ∧ fifo'.size = fifo.size ∧
      fifo'.queue
        = (if fifo.used = fifo.size.toNat then fifo.queue.drop 1 else fifo.queue) ++ [c] := by
  have hused := h.used_le
  have hsize := h.size_le
  have hone : (1 : UInt32).toNat = 1 := rfl
  let buffer := Function.update fifo.buffer ((fifo.out.toNat + fifo.used) % fifo.size.toNat) c
  let grown : Kfifo := ⟨buffer, fifo.size, fifo.inn + 1, fifo.out⟩
  have hgrown : grown.used = fifo.used + 1 := @used_advance_inn fifo 1 (by omega) buffer
  have heq : kfifoPutc fifo c = some (if grown.inn - grown.out > grown.size
      then { grown with out := grown.out + 1 } else grown) := by
    have hplace := h.window_inn 0
    rw [Nat.add_zero, Nat.add_zero] at hplace
    rw [kfifoPutc, copyIn_eq _ (h.mask_add_one_le _), h.mask_toNat, hplace]
    rfl
  have hcond : grown.inn - grown.out > grown.size ↔ fifo.used = fifo.size.toNat :=
    h.putc_gt_iff
  by_cases hfull : fifo.used = fifo.size.toNat
  · -- the oldest byte is dropped
    rw [if_pos (hcond.mpr hfull)] at heq
    have hadv := @used_advance_out grown 1 (by rw [hgrown]; omega) buffer
    rw [hgrown, hone, Nat.add_sub_cancel] at hadv
    have hval : ({ grown with out := grown.out + 1 } : Kfifo).used = fifo.used := hadv
    refine ⟨_, heq, ⟨h.pow, hval.trans_le hused⟩, rfl, ?_⟩
    have hbuffer : buffer = Function.update fifo.buffer
        ((fifo.out.toNat + fifo.size.toNat) % fifo.size.toNat) c :=
      congrArg (fun i => Function.update fifo.buffer ((fifo.out.toNat + i) % fifo.size.toNat) c)
        hfull
    rw [if_pos hfull, queue, hval]
    show window fifo.size.toNat buffer (fifo.out + 1).toNat fifo.used = _
    rw [h.window_out_add, hone, queue, hfull, hbuffer]
    exact window_overwrite h.size_pos c
  · rw [if_neg fun hgt => hfull (hcond.mp hgt)] at heq
    have hroom : fifo.used + 1 ≤ fifo.size.toNat := by omega
    refine ⟨_, heq, ⟨h.pow, hgrown.trans_le hroom⟩, rfl, ?_⟩
    have hpush := @window_push UInt8 fifo.size.toNat fifo.buffer fifo.out.toNat fifo.used
      (by omega) c
    rw [if_neg hfull, queue, hgrown]
    exact hpush

/-- Where `putc` leaves the counter of the reader. -/
theorem Valid.putc_out (h : fifo.Valid) {c : UInt8} {fifo' : Kfifo}
    (heq : kfifoPutc fifo c = some fifo') :
    fifo'.out = if fifo.used = fifo.size.toNat then fifo.out + 1 else fifo.out := by
  have hgt := h.putc_gt_iff
  rw [kfifoPutc, copyIn_eq _ (h.mask_add_one_le _)] at heq
  obtain rfl := Option.some.inj heq
  by_cases hfull : fifo.used = fifo.size.toNat
  · rw [if_pos hfull, if_pos (hgt.mpr hfull)]
  · rw [if_neg hfull, if_neg (fun hc => hfull (hgt.mp hc))]

theorem queue_eq_nil_iff : fifo.queue = [] ↔ fifo.used = 0 := by
  rw [← List.length_eq_zero_iff, queue_length]

/-- An empty FIFO has no byte to give. -/
theorem getc_of_nil (hq : fifo.queue = []) : kfifoGetc fifo = some (none, fifo) :=
  if_pos (used_eq_zero_iff.mp (queue_eq_nil_iff.mp hq))

/-- The first byte of the queue, at the place of `out`. -/
theorem queue_eq_cons (h : 0 < fifo.used) :
    fifo.queue = fifo.buffer (fifo.out.toNat % fifo.size.toNat) :: fifo.queue.drop 1 := by
  have htake := take_succ_queue h
  rw [List.take_zero, List.nil_append] at htake
  calc fifo.queue = fifo.queue.take 1 ++ fifo.queue.drop 1 := (List.take_append_drop 1 _).symm
    _ = _ := by rw [htake]; rfl

theorem used_of_cons {c : UInt8} {tail : List UInt8} (hq : fifo.queue = c :: tail) :
    fifo.used = tail.length + 1 := by
  rw [← queue_length, hq, List.length_cons]

/-- Any other gives its first one. -/
theorem Valid.getc_of_cons (h : fifo.Valid) {c : UInt8} {tail : List UInt8}
    (hq : fifo.queue = c :: tail) :
    kfifoGetc fifo = some (some c, { fifo with out := fifo.out + 1 }) := by
  have hused := used_of_cons hq
  have hne : fifo.inn ≠ fifo.out := fun he => by
    rw [used_eq_zero_iff.mpr he] at hused
    exact Nat.succ_ne_zero _ hused.symm
  have hcons := queue_eq_cons ((Nat.succ_pos tail.length).trans_eq hused.symm)
  rw [hq, List.cons.injEq] at hcons
  rw [kfifoGetc, if_neg hne, copyOut_eq (h.mask_add_one_le _), h.mask_toNat, hcons.1]
  rfl

/-- **getc.**  The oldest byte is taken out, if there is one. -/
theorem Valid.getc (h : fifo.Valid) :
    ∃ fifo', kfifoGetc fifo = some (fifo.queue.head?, fifo') ∧ fifo'.Valid ∧
      fifo'.size = fifo.size ∧ fifo'.queue = fifo.queue.drop 1 := by
  cases hq : fifo.queue with
  | nil => exact ⟨fifo, getc_of_nil hq, h, rfl, hq⟩
  | cons c tail =>
    have hone : (1 : UInt32).toNat ≤ fifo.used := (Nat.le_add_left 1 _).trans_eq (used_of_cons hq).symm
    obtain ⟨hv, hdrop⟩ := h.advance_out hone
    rw [hq] at hdrop
    exact ⟨_, h.getc_of_cons hq, hv, rfl, hdrop⟩

theorem Valid.reset (h : fifo.Valid) :
    (kfifoReset fifo).Valid ∧ (kfifoReset fifo).size = fifo.size ∧ (kfifoReset fifo).queue = [] := by
  have hused : (kfifoReset fifo).used = 0 := used_eq_zero_iff.mpr rfl
  refine ⟨⟨h.pow, ?_⟩, rfl, ?_⟩
  · rw [hused]
    exact Nat.zero_le _
  · rw [queue, hused, window_zero]

end Kfifo

/-! ### Runs -/

/-- The calls of a FIFO. -/
inductive FifoCall
  | put (buffer : ℕ → UInt8) (len : UInt32)
  | get (len : UInt32)
  | putc (c : UInt8)
  | getc
  | len
  | reset

/-- What a call returns, with the bytes it hands over. -/
inductive FifoRet
  | count (n : ℕ)
  | bytes (n : ℕ) (bs : List UInt8)
  | byte (c : Option UInt8)
  | done
deriving DecidableEq

/-- A call; `none` is an access outside the buffer. -/
def fifoStep (fifo : Kfifo) : FifoCall → Option (Kfifo × List FifoRet)
  | .put buffer len => (kfifoPut fifo buffer len).map fun r => (r.2, [.count r.1.toNat])
  | .get len => (kfifoGet fifo len).map fun r => (r.2.2, [.bytes r.1.toNat r.2.1])
  | .putc c => (kfifoPutc fifo c).map fun fifo' => (fifo', [.done])
  | .getc => (kfifoGetc fifo).map fun r => (r.2, [.byte r.1])
  | .len => some (fifo, [.count (kfifoLen fifo).toNat])
  | .reset => some (kfifoReset fifo, [.done])

/-- The same call on a queue of at most `size` bytes. -/
def queueStep (size : ℕ) (q : List UInt8) : FifoCall → List UInt8 × FifoRet
  | .put buffer len =>
      let n := min len.toNat (size - q.length)
      (q ++ (List.range n).map buffer, .count n)
  | .get len =>
      let n := min len.toNat q.length
      (q.drop n, .bytes n (q.take n))
  | .putc c => ((if q.length = size then q.drop 1 else q) ++ [c], .done)
  | .getc => (q.drop 1, .byte q.head?)
  | .len => (q, .count q.length)
  | .reset => ([], .done)

/-- A run of calls on a queue. -/
def queueRun (size : ℕ) : List UInt8 → List FifoCall → List UInt8 × List FifoRet
  | q, [] => (q, [])
  | q, c :: cs =>
      let r := queueRun size (queueStep size q c).1 cs
      (r.1, (queueStep size q c).2 :: r.2)

/-- **Step.**  A call keeps the FIFO valid and does to the queue in the buffer what it
does to a queue. -/
theorem Kfifo.Valid.step {fifo : Kfifo} (h : fifo.Valid) (c : FifoCall) :
    ∃ fifo', fifoStep fifo c = some (fifo', [(queueStep fifo.size.toNat fifo.queue c).2]) ∧
      fifo'.Valid ∧ fifo'.size = fifo.size ∧
      fifo'.queue = (queueStep fifo.size.toNat fifo.queue c).1 := by
  cases c with
  | put buffer len =>
    obtain ⟨n, fifo', heq, hv, hsize, hn, hq⟩ := h.put buffer len
    rw [← queue_length] at hn
    refine ⟨fifo', ?_, hv, hsize, ?_⟩
    · rw [fifoStep, heq]
      simp [queueStep, hn]
    · rw [hq, hn]
      rfl
  | get len =>
    obtain ⟨n, fifo', heq, hv, hsize, hn, hq⟩ := h.get len
    rw [← queue_length] at hn
    refine ⟨fifo', ?_, hv, hsize, ?_⟩
    · rw [fifoStep, heq]
      simp [queueStep, hn]
    · rw [hq, hn]
      rfl
  | putc c =>
    obtain ⟨fifo', heq, hv, hsize, hq⟩ := h.putc c
    rw [← queue_length] at hq
    refine ⟨fifo', ?_, hv, hsize, hq⟩
    rw [fifoStep, heq]
    rfl
  | getc =>
    obtain ⟨fifo', heq, hv, hsize, hq⟩ := h.getc
    refine ⟨fifo', ?_, hv, hsize, hq⟩
    rw [fifoStep, heq]
    rfl
  | len =>
    refine ⟨fifo, ?_, h, rfl, rfl⟩
    rw [fifoStep, queueStep, queue_length]
    rfl
  | reset =>
    obtain ⟨hv, hsize, hq⟩ := h.reset
    exact ⟨_, rfl, hv, hsize, hq⟩

theorem Kfifo.Valid.run {cs : List FifoCall} :
    ∀ {fifo : Kfifo}, fifo.Valid →
      ∃ fifo', run fifoStep fifo cs = some (fifo', (queueRun fifo.size.toNat fifo.queue cs).2) ∧
        fifo'.Valid ∧ fifo'.size = fifo.size ∧
        fifo'.queue = (queueRun fifo.size.toNat fifo.queue cs).1 := by
  induction cs with
  | nil => exact fun h => ⟨_, rfl, h, rfl, rfl⟩
  | cons c cs ih =>
    intro fifo h
    obtain ⟨fifo₁, heq, hv, hsize, hq⟩ := h.step c
    obtain ⟨fifo', hrun, hv', hsize', hq'⟩ := ih hv
    rw [hsize, hq] at hrun hq'
    exact ⟨fifo', run_cons_eq_some.mpr ⟨fifo₁, _, _, heq, hrun, rfl⟩, hv', hsize'.trans hsize, hq'⟩

theorem kfifoInitStatic_valid (buffer : ℕ → UInt8) {size : UInt32}
    (hsize : ∃ k ≤ 31, size.toNat = 2 ^ k) :
    (kfifoInitStatic buffer size).Valid ∧ (kfifoInitStatic buffer size).queue = [] := by
  have hused : (kfifoInitStatic buffer size).used = 0 := Kfifo.used_eq_zero_iff.mpr rfl
  refine ⟨⟨hsize, ?_⟩, ?_⟩
  · rw [hused]
    exact Nat.zero_le _
  · rw [Kfifo.queue, hused, window_zero]

/-- **The FIFO is a queue.**  For every size that is a power of two up to 2^31, every
run of calls on a fresh FIFO stays inside the buffer, returns what the calls return
on a queue of at most `size` bytes, and leaves the bytes of that queue in the
buffer. -/
theorem kfifo_refines_queue (buffer : ℕ → UInt8) (size : UInt32)
    (hsize : ∃ k ≤ 31, size.toNat = 2 ^ k) (cs : List FifoCall) :
    ∃ fifo, run fifoStep (kfifoInitStatic buffer size) cs
        = some (fifo, (queueRun size.toNat [] cs).2) ∧
      fifo.queue = (queueRun size.toNat [] cs).1 ∧
      (kfifoLen fifo).toNat = (queueRun size.toNat [] cs).1.length ∧
      (queueRun size.toNat [] cs).1.length ≤ size.toNat := by
  obtain ⟨hv, hq⟩ := kfifoInitStatic_valid buffer hsize
  obtain ⟨fifo, hrun, hv', hs', hq'⟩ := @Kfifo.Valid.run cs _ hv
  rw [hq] at hrun hq'
  have hlen := Kfifo.queue_length fifo
  rw [hq'] at hlen
  refine ⟨fifo, hrun, hq', hlen.symm, ?_⟩
  have hle := hv'.used_le
  rw [hs', ← hlen] at hle
  exact hle

/-- Four bytes put into a FIFO of four, one more that drops the oldest, and a get. -/
theorem kfifo_refines_queue_four :
    ∃ fifo, run fifoStep (kfifoInitStatic (fun _ => 0) 4)
        [.put (fun i => UInt8.ofNat (i + 1)) 9, .putc 7, .get 3, .len]
      = some (fifo, [.count 4, .done, .bytes 3 [2, 3, 4], .count 1]) ∧ fifo.queue = [7] := by
  obtain ⟨fifo, hrun, hq, -, -⟩ := kfifo_refines_queue (fun _ => 0) 4 ⟨2, by decide, rfl⟩
    [.put (fun i => UInt8.ofNat (i + 1)) 9, .putc 7, .get 3, .len]
  exact ⟨fifo, hrun, hq⟩

end Start01
